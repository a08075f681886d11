import Cordon.Core.Suspensions

/-!
# Who a request comes from

A connection over mutual TLS shows a certificate that the client authority signed, and the identity
of its requests is parsed from that certificate. Any other request may **name itself in a header**.
The header is cut down to what can neither forge a log line nor leave a directory, and the identity
made of it is marked, so that a deployment that requires mutual TLS can refuse it.

The fingerprint of an identity that was read from a header is the digest of the name, where that of
a certificate is the digest of the certificate; pins on certificates keep the two apart.

`authorizeRequest_of_certificate` and `authorizeRequest_of_header` are the two ways in, and
`IdentityRegistry.verify_eq_ok_iff` is what a registry asks of either; what is proved about clients
elsewhere rests on these three. The parser of certificates and the display of addresses come from
elsewhere (`CertificateParser`, `HostText`), and what they return is not restricted.
-/

namespace Cordon

/-! ### Certificates -/

/-- An alternative name of a certificate's subject. -/
inductive GeneralName
  | dns (name : String)
  | uri (name : String)
  | rfc822 (name : String)
  | ip (bytes : Bytes)
  | other
  deriving DecidableEq, Repr

/-- What the identity is made of, as the parser finds it in a certificate. -/
structure SubjectNames where
  /-- The common names of the subject, `none` where one is not a string. -/
  commonNames : List (Option String)
  /-- The alternative names, if there is one extension for them that can be read. -/
  alternativeNames : Option (List GeneralName)
  /-- Seconds since the epoch. -/
  notBefore : ℤ
  notAfter : ℤ

/-- Parsing of certificates and display of addresses, which come from elsewhere. -/
structure CertificateParser where
  /-- `X509Certificate::from_der`, with the displayed error. -/
  fromDer : Bytes → Except String SubjectNames
  /-- The displayed form of an IPv6 address. -/
  displayIpv6 : Bytes → String
  limits : ChronoLimits

namespace CertificateParser

variable (C : CertificateParser)

/-- `format_ip`. -/
def formatIp : Bytes → String
  | [a, b, c, d] =>
    toString a ++ "." ++ toString b ++ "." ++ toString c ++ "." ++ toString d
  | bytes => if bytes.length = 16 then C.displayIpv6 bytes else Text.hexEncode bytes

/-- An alternative name with its kind in front. -/
def sanText : GeneralName → Option String
  | .dns name => some ("DNS:" ++ name)
  | .uri name => some ("URI:" ++ name)
  | .rfc822 name => some ("EMAIL:" ++ name)
  | .ip bytes => some ("IP:" ++ C.formatIp bytes)
  | .other => none

/-- `first_san_value`: the first name of a kind, without the kind. -/
def firstSanValue (sans : List String) (kind : String) : Option String :=
  (sans.find? fun s ↦ kind.toList.isPrefixOf s.toList).map fun s ↦
    String.ofList (s.toList.drop kind.toList.length)

/-- `asn1_to_utc`. -/
def asn1ToUtc (secs : ℤ) : Except CordonError ℤ :=
  if C.limits.first ≤ secs * 1000000000 ∧ secs * 1000000000 ≤ C.limits.last then
    .ok (secs * 1000000000)
  else .error (.authFailed "certificate validity timestamp out of range")

/-- `parse_client_identity_from_cert`: the client is the first common name, else the first URI, else
the first DNS name. -/
def parseClientIdentityFromCert (der : Bytes) : Except CordonError ClientIdentity := do
  let cert ← (C.fromDer der).mapError fun e ↦
    .authFailed ("client certificate is not valid DER X.509: " ++ e)
  let sans := (cert.alternativeNames.getD []).filterMap C.sanText
  let commonName := (cert.commonNames.head?.join).filter fun s ↦ !s.isEmpty
  match (commonName.or (firstSanValue sans "URI:")).or (firstSanValue sans "DNS:") with
  | none => throw (.authFailed ("client certificate has no subject CN and no URI/DNS SAN; " ++
      "cannot determine a client identity"))
  | some clientId =>
    let notBefore ← C.asn1ToUtc cert.notBefore
    let notAfter ← C.asn1ToUtc cert.notAfter
    return { clientId, notBefore, notAfter, fingerprint := Sha256.digestHex der }

end CertificateParser

/-! ### Requests -/

/-- How an identity was established. -/
inductive IdentitySource
  | clientCertificate
  | developmentHeader
  deriving DecidableEq, Repr

/-- An identity with the strength of its authentication. -/
structure VerifiedIdentity where
  identity : ClientIdentity
  source : IdentitySource
  deriving DecidableEq, Repr

/-- Whether the identity is bound to the connection. -/
def VerifiedIdentity.isVerified (vid : VerifiedIdentity) : Bool :=
  vid.source = .clientCertificate

/-- An hour, in nanoseconds. -/
def hourNanos : ℤ := 3600000000000

/-- `ClientIdentity::from_dev_header`. -/
def ClientIdentity.fromDevHeader (now : ℤ) (clientId : String) : ClientIdentity where
  clientId := clientId
  notBefore := now - hourNanos
  notAfter := now + hourNanos
  fingerprint := Sha256.digestHex (Text.asBytes clientId)

/-- The characters of a client's name. -/
def isClientIdChar (c : Char) : Bool :=
  c.isAlphanum || c == '-' || c == '_' || c == '.' || c == '@'

/-- `sanitize_client_id`: keep what can do no harm, and not more than 128 characters of it. -/
def sanitizeClientId (raw : String) : String :=
  let cleaned := String.ofList ((raw.toList.filter isClientIdChar).take 128)
  if cleaned.isEmpty then "anonymous" else cleaned

/-- `HeaderValue::to_str`: a header is a text if it holds visible ASCII only. -/
def headerText (value : Bytes) : Option String :=
  if value.all fun b ↦ (32 ≤ b && b < 127) || b == 9 then
    some (String.ofList (value.map fun b ↦ Char.ofNat b.toNat))
  else none

/-- The name that a request gives itself. -/
def headerClientId (header : Option Bytes) : String :=
  ((header.bind headerText).map sanitizeClientId).getD "anonymous"

/-- `serve_tls_connection`, what it finds out about the peer: the certificates are those that the
handshake verified. -/
def connectionIdentity (C : CertificateParser) (peerCertificates : List Bytes) :
    Option VerifiedIdentity :=
  match peerCertificates.head? with
  | none => none
  | some cert =>
    match C.parseClientIdentityFromCert cert with
    | .ok identity => some ⟨identity, .clientCertificate⟩
    | .error _ => none

/-- `populate_identity`: an identity that the connection gives is left untouched. -/
def populateIdentity (arrived : ℤ) (header : Option Bytes) :
    Option VerifiedIdentity → VerifiedIdentity
  | some vid => vid
  | none => ⟨.fromDevHeader arrived (headerClientId header), .developmentHeader⟩

/-- `authenticated_client`: where mutual TLS is required, an identity from a header is refused. -/
def authenticatedClient (requireMtls : Bool) (vid : VerifiedIdentity) :
    Except CordonError ClientIdentity :=
  if requireMtls && !vid.isVerified then
    .error (.authFailed "mTLS is required but no verified client certificate was presented")
  else .ok vid.identity

/-- What every handler does before it serves: the client of the request, under its policy. -/
def authorizeRequest (H : HostText) (C : CertificateParser) (registry : IdentityRegistry)
    (requireMtls : Bool) (arrived now : ℤ) (peerCertificates : List Bytes)
    (header : Option Bytes) : Except CordonError ClientPolicy := do
  let client ← authenticatedClient requireMtls
    (populateIdentity arrived header (connectionIdentity C peerCertificates))
  registry.verify H now client

/-! ### What a request is authorized for -/

section Authorize

variable {H : HostText} {C : CertificateParser} {registry : IdentityRegistry} {requireMtls : Bool}
  {arrived now : ℤ} {peerCertificates : List Bytes} {header : Option Bytes} {policy : ClientPolicy}

/-- **A certificate that can be read decides who the client is**, whatever the header says. -/
theorem authorizeRequest_of_certificate {der : Bytes} {rest : List Bytes}
    {identity : ClientIdentity} (hparse : C.parseClientIdentityFromCert der = .ok identity) :
    authorizeRequest H C registry requireMtls arrived now (der :: rest) header =
      registry.verify H now identity := by
  have hconnection : connectionIdentity C (der :: rest) = some ⟨identity, .clientCertificate⟩ := by
    simp only [connectionIdentity, List.head?_cons, hparse]
  rw [authorizeRequest, hconnection, populateIdentity, authenticatedClient,
    if_neg (by simp [VerifiedIdentity.isVerified])]
  rfl

/-- Without one the client is whom the header names, and mutual TLS must not be required. -/
theorem authorizeRequest_of_header (hnone : connectionIdentity C peerCertificates = none) :
    authorizeRequest H C registry requireMtls arrived now peerCertificates header = .ok policy ↔
      requireMtls = false ∧
        registry.verify H now (.fromDevHeader arrived (headerClientId header)) = .ok policy := by
  rw [authorizeRequest, hnone, populateIdentity, authenticatedClient]
  rcases requireMtls with - | -
  · rw [if_neg (by simp)]
    simp
  · rw [if_pos (by simp [VerifiedIdentity.isVerified])]
    simp

/-- The check of a policy that was found. -/
theorem policyCheck_eq_ok_iff {found : ClientPolicy} {identity : ClientIdentity} :
    ((do
        if !found.isValidAt now then
          throw (.authFailed
            ("policy for client " ++ identity.clientId ++ " is expired or inactive"))
        if !found.certPins.isEmpty && !found.pinMatches H identity.fingerprint then
          throw (.authFailed ("certificate pin mismatch for client " ++ identity.clientId))
        return found : Except CordonError ClientPolicy)) = .ok policy ↔
      found = policy ∧ found.isValidAt now = true ∧
        (found.certPins = [] ∨ found.pinMatches H identity.fingerprint = true) := by
  rcases found.isValidAt now with - | -
  · simp [Except.throw_eq_error]
  · by_cases hpins : found.certPins = []
    · simp [hpins]
    · rcases found.pinMatches H identity.fingerprint with - | - <;>
        simp [hpins, Except.throw_eq_error]

/-- **When a registry lets an identity pass**: it is current, not suspended, and its policy is in
force and pins nothing else. -/
theorem IdentityRegistry.verify_eq_ok_iff {identity : ClientIdentity} :
    registry.verify H now identity = .ok policy ↔
      identity.isValidAt now = true ∧
      (∀ s, registry.suspended.lookup identity.clientId = some s → s.suspendedUntil ≤ now) ∧
      registry.policyFor identity.clientId = .ok policy ∧ policy.isValidAt now = true ∧
      (policy.certPins = [] ∨ policy.pinMatches H identity.fingerprint = true) := by
  have hpolicy : ∀ {x : Except CordonError ClientPolicy}, x = (do
      let found ← registry.policyFor identity.clientId
      if !found.isValidAt now then
        throw (.authFailed
          ("policy for client " ++ identity.clientId ++ " is expired or inactive"))
      if !found.certPins.isEmpty && !found.pinMatches H identity.fingerprint then
        throw (.authFailed ("certificate pin mismatch for client " ++ identity.clientId))
      return found) → (x = .ok policy ↔
        registry.policyFor identity.clientId = .ok policy ∧ policy.isValidAt now = true ∧
        (policy.certPins = [] ∨ policy.pinMatches H identity.fingerprint = true)) := by
    rintro x rfl
    rw [Except.bind_eq_ok]
    simp only [policyCheck_eq_ok_iff]
    constructor
    · rintro ⟨found, hfound, rfl, hcurrent, hpins⟩
      exact ⟨hfound, hcurrent, hpins⟩
    · rintro ⟨hfound, hcurrent, hpins⟩
      exact ⟨policy, hfound, rfl, hcurrent, hpins⟩
  rw [IdentityRegistry.verify]
  rcases identity.isValidAt now with - | -
  · simp [Except.throw_eq_error]
  · rcases hsuspended : registry.suspended.lookup identity.clientId with - | s
    · exact (hpolicy rfl).trans ⟨fun h ↦ ⟨rfl, by simp, h⟩, fun h ↦ h.2.2⟩
    · by_cases hnow : now < s.suspendedUntil
      · simp [hnow, Except.throw_eq_error]
      · refine (hpolicy ?_).trans ⟨fun h ↦ ⟨rfl, ?_, h⟩, fun h ↦ h.2.2⟩
        · simp [hnow]
        · rintro _ ⟨⟩
          exact not_lt.1 hnow

end Authorize

end Cordon
