import Sigil.Sdk.Turnkey

/-!
# What a cryptographic verdict proves

A verdict proves the boot proof. It binds the wallet only if the bundle has an app proof whose key is the one in the
boot document; the code compares them nowhere.
-/

namespace Sigil.Sdk

open Library

section
variable (prim : Primitives)

/-- `issuer` signed `cert`, which is valid. -/
def Issued (now : Int) (cert issuer : prim.Certificate) : Prop :=
  prim.checkIssued cert issuer ∧ prim.certVerify cert (prim.publicKey issuer) ∧
    prim.validFrom cert ≤ now ∧ now ≤ prim.validTo cert

/-- Bytes of a field of the document. -/
def fieldBytes : Option Cbor → Option ByteString
  | none => none
  | some v => if v.truthy then prim.bufferFrom v else none

/-- The key of the enclave. -/
def bootKey (document : Cbor) : Option ByteString := fieldBytes prim (document.get "public_key")

/-- The document is signed by the first of a chain of certificates that ends at the root, and has the PCR3 that is
expected. -/
structure BootProved (now : Int) (config : AttestationConfig) (bootBytes : ByteString) (document : Cbor) : Prop where
  signed : ∃ cose leaf certs derSig, decodeCoseSign1 prim bootBytes = .ok cose ∧
    List.IsChain (Issued prim now) (leaf :: (certs ++ [prim.rootCert])) ∧ rawSigToDer cose.signature 48 = .ok derSig ∧
    prim.verifySha384 (prim.publicKey leaf) (buildSigStructure prim cose) derSig ∧
    prim.cborDecode cose.payload = some document
  pcr3 : ∀ expected, config.expectedPcr3 = some expected → expected ≠ "" →
    ∃ actual, fieldBytes prim (pcrEntry document 3) = some actual ∧ (hexText actual).toLower = expected.toLower

/-- The key of a boot document that is proved signs only for the wallet that the document was issued for. -/
def Unforgeable (issuedFor : Cbor → ByteString → Prop) : Prop :=
  ∀ now config bootBytes document key walletKey signature, BootProved prim now config bootBytes document →
    bootKey prim document = some key → prim.verifySha256 key walletKey signature = some true →
    issuedFor document walletKey

/-- The boot document vouches for the app key, which signed for the wallet, and was issued for the wallet. -/
def WalletBound (issuedFor : Cbor → ByteString → Prop) (wallet : WalletLike) (bundle : TurnkeyAttestationBundle)
    (document : Cbor) : Prop :=
  ∃ appPublicKey appSignature walletKey, bundle.appPublicKey = .string appPublicKey ∧
    bundle.appSignature = .string appSignature ∧ bootKey prim document = some (hexBytes appPublicKey.toList) ∧
    prim.addressBytes wallet.publicKey = some walletKey ∧
    prim.verifySha256 (hexBytes appPublicKey.toList) walletKey (hexBytes appSignature.toList) = some true ∧
    issuedFor document walletKey

/-- What a cryptographic verdict should mean. -/
def Binds (issuedFor : Cbor → ByteString → Prop) (now : Int) (wallet : WalletLike) (config : AttestationConfig)
    (bundle : TurnkeyAttestationBundle) : Prop :=
  ∃ bootProof document, bundle.bootProof = .string bootProof ∧
    BootProved prim now config (prim.base64Decode bootProof) document ∧
    WalletBound prim issuedFor wallet bundle document

/-- The document of a boot proof. -/
def bootDocument (bootBytes : ByteString) : Except TurnkeyError Cbor := do
  let cose ← decodeCoseSign1 prim bootBytes
  okOr (prim.cborDecode cose.payload) .failed

/-- The bundle has an app proof, and its key is the one in the document. -/
def KeyVouched (bundle : TurnkeyAttestationBundle) : Prop :=
  bundle.hasAppProof ∧ ∃ bootProof appPublicKey document, bundle.bootProof = .string bootProof ∧
    bundle.appPublicKey = .string appPublicKey ∧ bootDocument prim (prim.base64Decode bootProof) = .ok document ∧
    bootKey prim document = some (hexBytes appPublicKey.toList)

end

section
variable {prim : Primitives} {now : Int} {wallet : WalletLike} {config : AttestationConfig}
  {bundle : TurnkeyAttestationBundle} {result : AttestationResult} {document : Cbor}

/-! ## The boot proof -/

theorem isChain_of_checkChain {certs : List prim.Certificate} {leaf : prim.Certificate} {i : Nat}
    (h : checkChain prim now i (leaf :: certs) = .ok ()) :
    List.IsChain (Issued prim now) (leaf :: (certs ++ [prim.rootCert])) := by
  have hissued {i : Nat} {cert issuer : prim.Certificate} (h : checkCertificate prim now i cert issuer = .ok ()) :
      Issued prim now cert issuer := by
    simp only [checkCertificate, bind_eq_ok, require_eq_ok] at h
    obtain ⟨_, hissued, _, hverify, hvalid⟩ := h
    exact ⟨hissued, hverify, hvalid⟩
  induction certs generalizing leaf i with
  | nil => exact List.isChain_pair.mpr (hissued h)
  | cons issuer certs ih =>
      simp only [checkChain, bind_eq_ok] at h
      obtain ⟨_, hfirst, hrest⟩ := h
      exact List.isChain_cons_cons.mpr ⟨hissued hfirst, ih hrest⟩

/-- The signing certificate starts a chain that ends at the root. -/
theorem validateCertChain_ok {buffers : List ByteString} {leaf : prim.Certificate}
    (h : validateCertChain prim now buffers = .ok leaf) :
    ∃ certs, List.IsChain (Issued prim now) (leaf :: (certs ++ [prim.rootCert])) := by
  simp only [validateCertChain, bind_eq_ok] at h
  obtain ⟨_, -, certs, -, _, hchain, hfirst⟩ := h
  cases certs with
  | nil => cases hfirst
  | cons cert certs =>
      cases hfirst
      exact ⟨certs, isChain_of_checkChain hchain⟩

theorem documentBytes_ok {v : Option Cbor} {bytes : Option ByteString} (h : documentBytes prim v = .ok bytes) :
    bytes = fieldBytes prim v := by
  unfold documentBytes at h
  cases v with
  | none =>
      cases h
      rfl
  | some v =>
      dsimp only at h
      split at h
      next htruthy =>
        cases hbuffer : prim.bufferFrom v with
        | none => simp [hbuffer, okOr, Except.map] at h
        | some b =>
            rw [hbuffer] at h
            cases h
            simp [fieldBytes, htruthy, hbuffer]
      next hfalsy =>
        cases h
        simp [fieldBytes, hfalsy]

theorem verifyBootProof_ok {bootBytes : ByteString} (h : verifyBootProof prim now config bootBytes = .ok document) :
    BootProved prim now config bootBytes document := by
  simp only [verifyBootProof, bind_eq_ok, require_eq_ok, okOr_eq_ok, pure_eq_ok] at h
  obtain ⟨cose, hcose, _, -, _, -, leaf, hleaf, derSig, hder, _, hverify, document, hdocument, _, -, _, -, _, -, _, -,
    pcr3, hpcr3, _, hcheck, rfl⟩ := h
  obtain ⟨certs, hchain⟩ := validateCertChain_ok hleaf
  refine ⟨⟨cose, leaf, certs, derSig, hcose, hchain, hder, hverify, hdocument⟩, fun expected hexpected hne => ?_⟩
  rw [← documentBytes_ok hpcr3]
  simp only [checkPcr3, hexpected, if_neg hne] at hcheck
  cases pcr3 with
  | none => cases hcheck
  | some actual => exact ⟨actual, rfl, require_eq_ok.mp hcheck⟩

theorem BootProved.bootDocument {bootBytes : ByteString} (h : BootProved prim now config bootBytes document) :
    bootDocument prim bootBytes = .ok document := by
  obtain ⟨⟨cose, leaf, certs, derSig, hcose, -, -, -, hdocument⟩, -⟩ := h
  exact bind_eq_ok.mpr ⟨cose, hcose, okOr_eq_ok.mpr hdocument⟩

/-! ## The app proof -/

theorem asText_ok {v : JsValue} {e : TurnkeyError} {s : String} (h : asText v e = .ok s) : v = .string s := by
  rw [asText, okOr_eq_ok] at h
  cases v <;> simp_all [JsValue.asString]

/-- An app proof is a signature for the wallet. -/
theorem checkAppProof_ok (h : checkAppProof prim wallet bundle document = .ok ()) (happ : bundle.hasAppProof) :
    ∃ appPublicKey appSignature walletKey, bundle.appPublicKey = .string appPublicKey ∧
      bundle.appSignature = .string appSignature ∧ prim.addressBytes wallet.publicKey = some walletKey ∧
      prim.verifySha256 (hexBytes appPublicKey.toList) walletKey (hexBytes appSignature.toList) = some true := by
  rw [checkAppProof, if_pos happ] at h
  simp only [verifyAppProof, bind_eq_ok, require_eq_ok, okOr_eq_ok] at h
  obtain ⟨_, -, _, -, _, -, appSignature, hsignature, appPublicKey, hkey, _, -, walletKey, hwallet, verified, hverify,
    rfl⟩ := h
  exact ⟨appPublicKey, appSignature, walletKey, asText_ok hkey, asText_ok hsignature, hwallet, hverify⟩

/-- A cryptographic verdict proves the boot proof, and binds the wallet if and only if the app key is there and is the
key of the boot document. -/
theorem turnkey_binds_iff {issuedFor : Cbor → ByteString → Prop} {attestation : Attestation}
    (hideal : Unforgeable prim issuedFor)
    (h : verifyTurnkey prim now wallet config attestation = .ok result)
    (hstatus : result.status = .cryptographicallyVerified) : ∃ bundle bootProof document,
      attestation = .bundle bundle ∧ bundle.bootProof = .string bootProof ∧
      BootProved prim now config (prim.base64Decode bootProof) document ∧
      (Binds prim issuedFor now wallet config bundle ↔ KeyVouched prim bundle) := by
  obtain ⟨bundle, rfl⟩ : ∃ bundle, attestation = .bundle bundle := by
    cases attestation with
    | bundle bundle => exact ⟨bundle, rfl⟩
    | missing | threw | null =>
        cases h
        cases hstatus
    | rejected => cases h
  simp only [verifyTurnkey, verifyBundle, bind_eq_ok] at h
  obtain ⟨bootProof, hbootProof, _, -, _, -, document, hboot, _, hcheck, -⟩ := h
  have hproof := asText_ok hbootProof
  have hproved := verifyBootProof_ok hboot
  refine ⟨bundle, bootProof, document, rfl, hproof, hproved, ?_, ?_⟩
  · rintro ⟨bootProof', document', hproof', hproved', appPublicKey, appSignature, walletKey, hkey, hsignature, hvouched,
      -⟩
    refine ⟨?_, bootProof', appPublicKey, document', hproof', hkey, hproved'.bootDocument, hvouched⟩
    simp [TurnkeyAttestationBundle.hasAppProof, hkey, hsignature]
  · rintro ⟨happ, bootProof', appPublicKey, document', hproof', hkey, hdocument, hvouched⟩
    obtain ⟨appPublicKey', appSignature, walletKey, hkey', hsignature, hwallet, hverify⟩ :=
      checkAppProof_ok hcheck happ
    obtain rfl : bootProof = bootProof' := by simpa [hproof] using hproof'
    obtain rfl : document = document' := by simpa [hproved.bootDocument] using hdocument
    obtain rfl : appPublicKey = appPublicKey' := by simpa [hkey] using hkey'
    exact ⟨bootProof, document, hproof, hproved, appPublicKey, appSignature, walletKey, hkey, hsignature, hvouched,
      hwallet, hverify, hideal _ _ _ _ _ _ _ hproved hvouched hverify⟩

end

/-! ### The boot proof of one wallet -/

def enclaveKey : ByteString := 4 :: List.replicate 64 1

def attackerKey : ByteString := 4 :: List.replicate 64 2

def enclaveDocument : Cbor :=
  .object [("pcrs", .map [(3, .bytes [171])]), ("public_key", .bytes enclaveKey)]

def enclaveProof : Cbor :=
  .tagged 18 (.array [.bytes [161], .map [(33, .array [.bytes [48]])], .bytes [2], .bytes (List.replicate 96 1)])

/-- The two system addresses stand for two wallets. -/
def ownerWallet : WalletLike := { publicKey := "11111111111111111111111111111112", provider := some "turnkey" }

def otherWallet : WalletLike := { publicKey := "11111111111111111111111111111111", provider := some "turnkey" }

def ownerBytes : ByteString := List.replicate 31 0 ++ [1]

/-- One certificate, one boot proof. The enclave signs for one wallet, and whoever makes a key signs what he wants. -/
def enclave : Primitives where
  Certificate := Unit
  PublicKey := Unit
  rootCert := ()
  parseCertificate _ := some ()
  checkIssued _ _ := true
  certVerify _ _ := true
  publicKey _ := ()
  validFrom _ := 0
  validTo _ := 1000
  verifySha384 _ _ _ := true
  verifySha256 key message signature :=
    some (if key = enclaveKey then message = ownerBytes ∧ signature = [1] else signature = [2])
  cborDecode bytes := if bytes = [1] then some enclaveProof else if bytes = [2] then some enclaveDocument else none
  cborEncode _ := []
  bufferFrom
    | .bytes b => some b
    | _ => none
  base64Decode _ := [1]
  addressBytes s :=
    if s = ownerWallet.publicKey then some ownerBytes
    else if s = otherWallet.publicKey then some (List.replicate 32 0)
    else none

def issuedForOwner (_ : Cbor) (walletKey : ByteString) : Prop := walletKey = ownerBytes

theorem enclave_document {now : Int} {config : AttestationConfig} {bootBytes : ByteString} {document : Cbor}
    {key : ByteString} (h : BootProved enclave now config bootBytes document)
    (hkey : bootKey enclave document = some key) : key = enclaveKey := by
  obtain ⟨⟨cose, _, _, _, -, -, -, -, hdocument⟩, -⟩ := h
  simp only [enclave] at hdocument
  split at hdocument
  · cases hdocument
    cases hkey
  · split at hdocument
    · cases hdocument
      cases hkey
      rfl
    · cases hdocument

theorem enclave_unforgeable : Unforgeable enclave issuedForOwner := by
  intro now config bootBytes document key walletKey signature hproved hkey hverify
  obtain rfl := enclave_document hproved hkey
  simp only [enclave, if_pos, Option.some.injEq, decide_eq_true_eq] at hverify
  exact hverify.1

def ownerBundle : TurnkeyAttestationBundle :=
  { bootProof := .string "AQ==", appSignature := .string "01", appPublicKey := .string (hexText enclaveKey) }

def cryptographicResult (wallet : WalletLike) : AttestationResult :=
  { status := .cryptographicallyVerified
    provider := .turnkey
    publicKey := wallet.publicKey
    message := "Turnkey attestation cryptographically verified: " ++
      "COSE_Sign1 P-384 signature valid, cert chain trusted, PCR values checked." }

theorem turnkey_binds_owner : ∃ result,
    verifyTurnkey enclave 500 ownerWallet {} (.bundle ownerBundle) = .ok result ∧
    result.status = .cryptographicallyVerified ∧ Binds enclave issuedForOwner 500 ownerWallet {} ownerBundle := by
  obtain ⟨result, hresult, hstatus⟩ : ∃ result,
      verifyTurnkey enclave 500 ownerWallet {} (.bundle ownerBundle) = .ok result ∧
      result.status = .cryptographicallyVerified :=
    ⟨cryptographicResult ownerWallet, by decide +kernel, rfl⟩
  obtain ⟨bundle, bootProof, document, hbundle, -, -, hiff⟩ :=
    turnkey_binds_iff enclave_unforgeable hresult hstatus
  cases hbundle
  refine ⟨result, hresult, hstatus, hiff.mpr ⟨rfl, "AQ==", hexText enclaveKey, enclaveDocument, rfl, rfl, rfl, ?_⟩⟩
  decide +kernel

/-! ### The same boot proof for another wallet -/

def bareBundle : TurnkeyAttestationBundle := { ownerBundle with appSignature := .undefined, appPublicKey := .undefined }

def forgedBundle : TurnkeyAttestationBundle :=
  { ownerBundle with appSignature := .string "02", appPublicKey := .string (hexText attackerKey) }

/-- The boot proof of one wallet gives a verdict for another, without an app proof and with one of the attacker. -/
theorem turnkey_replayed : Unforgeable enclave issuedForOwner ∧
    (∃ result, verifyTurnkey enclave 500 otherWallet {} (.bundle bareBundle) = .ok result ∧
      result.status = .cryptographicallyVerified ∧ ¬ Binds enclave issuedForOwner 500 otherWallet {} bareBundle) ∧
    ∃ result, verifyTurnkey enclave 500 otherWallet {} (.bundle forgedBundle) = .ok result ∧
      result.status = .cryptographicallyVerified ∧ ¬ Binds enclave issuedForOwner 500 otherWallet {} forgedBundle := by
  refine ⟨enclave_unforgeable, ⟨cryptographicResult otherWallet, by decide +kernel, rfl, ?_⟩,
    ⟨cryptographicResult otherWallet, by decide +kernel, rfl, ?_⟩⟩
  · rintro ⟨_, _, -, -, appPublicKey, _, _, hkey, -⟩
    cases hkey
  · rintro ⟨_, document, -, hproved, appPublicKey, _, _, hkey, -, hvouched, -⟩
    obtain rfl : hexText attackerKey = appPublicKey := JsValue.string.inj hkey
    exact absurd (enclave_document hproved hvouched) (by decide +kernel)

end Sigil.Sdk
