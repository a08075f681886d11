import Cordon.Core.Bundles

/-!
# Administrative commands

Five endpoints take administrative commands, and each asks for an Ed25519 signature over the
canonical text `CORDON_ADMIN:{action}:{params}`. What the parameters are is up to each endpoint: the
operator's reason, a client and a duration, or a directory.

The canonical text gives back the action and the parameters (`adminCanonical_inj`), and the
parameters give back every field that they were made from (`suspendParams_inj`, for the only ones
that are made from two), although a client's name may hold any number of colons. So a signature
binds a command **as far as its fields are signed**. Two fields that the endpoints act on are not:
the reason of a suspension, and the manifest of a bundle that is registered
(`admin_signature_binds_iff`).

The exactness rests on the condition being about unsigned fields only. If the two requests agree on
these, then equal signed bytes make them agree on the rest (`AdminRequest.actedFields_eq`); if they
do not, they differ in a field that is acted on, whatever is signed. That one signature is on one
text is assumed of the key (`VerifyingKey.BindsMessages`), and used in this direction only.
-/

namespace Cordon

/-- The administrative endpoints. -/
inductive AdminEndpoint
  | teardown
  | recover
  | quarantine
  | suspendClient
  | provisionModel
  deriving DecidableEq, Repr

/-- The name of an endpoint in the canonical text. -/
def AdminEndpoint.action : AdminEndpoint → String
  | .teardown => "teardown"
  | .recover => "recover"
  | .quarantine => "quarantine"
  | .suspendClient => "suspend-client"
  | .provisionModel => "provision-model"

/-- The body of an administrative request, without its signature. A manifest is what reading it as
one makes of the JSON value in the body. -/
inductive AdminRequest
  | teardown (reason : String)
  | recover (reason : String)
  | quarantine (reason : String)
  | suspendClient (clientId : String) (durationSeconds : ℕ) (reason : String)
  | provisionModel (bundleDirectory : String) (manifest : Except String BundleManifest)

namespace AdminRequest

/-- The endpoint a request is sent to. -/
def endpoint : AdminRequest → AdminEndpoint
  | teardown _ => .teardown
  | recover _ => .recover
  | quarantine _ => .quarantine
  | suspendClient .. => .suspendClient
  | provisionModel .. => .provisionModel

/-- The parameters that each handler puts under the signature. -/
def params : AdminRequest → String
  | teardown reason => reason
  | recover reason => reason
  | quarantine reason => reason
  -- the reason is stored with the suspension and is not signed
  | suspendClient clientId durationSeconds _ => clientId ++ ":" ++ toString durationSeconds
  -- the manifest is registered and is not signed
  | provisionModel bundleDirectory _ => bundleDirectory

/-- **Every field that a handler acts on**: what it records, suspends or registers. -/
structure ActedFields where
  endpoint : AdminEndpoint
  reason : Option String
  clientId : Option String
  durationSeconds : Option ℕ
  bundleDirectory : Option String
  /-- The manifest that gets registered. -/
  manifest : Option BundleManifest
  deriving DecidableEq

/-- The fields of a request that its handler acts on. -/
def actedFields : AdminRequest → ActedFields
  | teardown reason => ⟨.teardown, some reason, none, none, none, none⟩
  | recover reason => ⟨.recover, some reason, none, none, none, none⟩
  | quarantine reason => ⟨.quarantine, some reason, none, none, none, none⟩
  | suspendClient clientId durationSeconds reason =>
    ⟨.suspendClient, some reason, some clientId, some durationSeconds, none, none⟩
  | provisionModel bundleDirectory manifest =>
    ⟨.provisionModel, none, none, none, some bundleDirectory, manifest.toOption⟩

end AdminRequest

/-! ### Authorization -/

/-- What the node holds for checking administrative commands. -/
structure AdminKeys where
  adminVk : Option VerifyingKey
  /-- Development override: accept commands without a signature. -/
  insecureAdmin : Bool

/-- The canonical string an operator signs to authorize an action. -/
def adminCanonical (action params : String) : String :=
  "CORDON_ADMIN:" ++ action ++ ":" ++ params

/-- `CordonNode::authorize_admin`. -/
def authorizeAdmin (E : Ed25519) (keys : AdminKeys) (action params signatureHex : String) :
    Except CordonError Unit :=
  match keys.adminVk with
  | none =>
    if keys.insecureAdmin then .ok ()
    else .error (.adminRejected ("no admin key is provisioned, so the admin API is disabled. " ++
      "Provision a Client Master Key, or set CORDON_INSECURE_ADMIN=true in Light mode."))
  | some vk =>
    match Signature.fromHex (String.ofList (Text.trim signatureHex.toList)) with
    | .error _ =>
      .error (.adminRejected "malformed admin signature (expected 128 hex characters)")
    | .ok signature =>
      match vk.verify E (Text.asBytes (adminCanonical action params)) signature with
      | .error _ =>
        .error (.adminRejected ("invalid admin signature for action '" ++ action ++ "'"))
      | .ok () => .ok ()

/-- Whether a handler's check of the signature lets its request pass. -/
def AdminRequest.authorize (E : Ed25519) (keys : AdminKeys) (request : AdminRequest)
    (adminSignature : String) : Except CordonError Unit :=
  authorizeAdmin E keys request.endpoint.action request.params adminSignature

/-- `CordonNode::client_may_administer`: privileges are in force once clients are enrolled. -/
def clientMayAdminister (T : HostText) (registry : IdentityRegistry) (now : ℤ)
    (client : ClientIdentity) : Except CordonError Unit :=
  match registry.unknownClient with
  | .allowWithDefaults => .ok ()
  | .deny =>
    match registry.verify T now client with
    | .error e => .error e
    | .ok policy =>
      if policy.adminAllowed then .ok ()
      else .error (.adminRejected ("client " ++ client.clientId ++
        " is not enrolled for administrative actions. Set admin_allowed = true for it in the " ++
        "client registry."))

/-- **A signature verifies for one message only**, under this key. -/
def VerifyingKey.BindsMessages (E : Ed25519) (vk : VerifyingKey) : Prop :=
  ∀ msg msg' sig, vk.verify E msg sig = .ok () → vk.verify E msg' sig = .ok () → msg = msg'

/-- **What a node with an admin key accepts**: a well-formed signature over the canonical text. -/
theorem AdminRequest.authorize_eq_ok_iff {E : Ed25519} {keys : AdminKeys} {vk : VerifyingKey}
    {request : AdminRequest} {adminSignature : String} (hkey : keys.adminVk = some vk) :
    request.authorize E keys adminSignature = .ok () ↔
      ∃ signature, Signature.fromHex (String.ofList (Text.trim adminSignature.toList)) =
          .ok signature ∧
        vk.verify E (Text.asBytes (adminCanonical request.endpoint.action request.params))
          signature = .ok () := by
  rw [authorize, authorizeAdmin, hkey]
  rcases Signature.fromHex (String.ofList (Text.trim adminSignature.toList)) with e | signature
  · simp
  · simp only [Except.ok.injEq, exists_eq_left']
    split
    · next hverify => simp [hverify]
    · next hverify => simp [hverify]

/-! ### What the canonical text gives back -/

theorem AdminEndpoint.action_injective : Function.Injective AdminEndpoint.action := by
  intro a b h
  rcases a with - | - | - | - | - <;> rcases b with - | - | - | - | - <;>
    first | rfl | exact absurd h (by decide)

theorem AdminEndpoint.colon_notMem_action (endpoint : AdminEndpoint) :
    ':' ∉ endpoint.action.toList := by
  rcases endpoint with - | - | - | - | - <;> decide

/-- The first colon after the leading word ends the action. -/
theorem adminCanonical_inj {a a' : AdminEndpoint} {params params' : String}
    (h : adminCanonical a.action params = adminCanonical a'.action params') :
    a = a' ∧ params = params' := by
  have hlist := congrArg String.toList h
  rw [adminCanonical, adminCanonical, String.toList_append, String.toList_append,
    String.toList_append, String.toList_append, String.toList_append, String.toList_append,
    List.append_assoc, List.append_assoc, List.append_assoc, List.append_assoc] at hlist
  -- both texts begin with the same word, whose colon is cancelled with it
  have hcut : a.action.toList ++ ':' :: params.toList = a'.action.toList ++ ':' :: params'.toList :=
    List.append_cancel_left hlist
  obtain ⟨haction, hparams⟩ := Text.cut_inj a.colon_notMem_action a'.colon_notMem_action hcut
  exact ⟨AdminEndpoint.action_injective (String.toList_inj.1 haction), String.toList_inj.1 hparams⟩

/-- The last colon begins the duration: a number has none. -/
theorem suspendParams_inj {client client' : String} {n n' : ℕ}
    (h : client ++ ":" ++ toString n = client' ++ ":" ++ toString n') :
    client = client' ∧ n = n' := by
  have hlist := congrArg String.toList h
  simp only [String.toList_append, List.append_assoc] at hlist
  have hcut : client.toList ++ ':' :: (toString n).toList =
      client'.toList ++ ':' :: (toString n').toList := hlist
  have hdigits : ∀ k : ℕ, ':' ∉ (toString k).toList := fun k hk ↦
    absurd (Text.isDigit_of_mem_toString hk) (by decide)
  obtain ⟨hclient, hn⟩ := Text.cut_last_inj (hdigits n) (hdigits n') hcut
  exact ⟨String.toList_inj.1 hclient, Text.toString_nat_injective (String.toList_inj.1 hn)⟩

/-! ### What a signature binds -/

/-- The two fields that a handler acts on and does not put under the signature agree. -/
def AdminRequest.UnsignedAgree : AdminRequest → AdminRequest → Prop
  | .suspendClient _ _ reason, .suspendClient _ _ reason' => reason = reason'
  | .provisionModel _ manifest, .provisionModel _ manifest' =>
    manifest.toOption = manifest'.toOption
  | _, _ => True

/-- **The signed parameters give back every signed field.** -/
theorem AdminRequest.actedFields_eq {r r' : AdminRequest} (hendpoint : r.endpoint = r'.endpoint)
    (hparams : r.params = r'.params) (hunsigned : r.UnsignedAgree r') :
    r.actedFields = r'.actedFields := by
  rcases r with reason | reason | reason | ⟨client, n, reason⟩ | ⟨dir, manifest⟩ <;>
    rcases r' with reason' | reason' | reason' | ⟨client', n', reason'⟩ | ⟨dir', manifest'⟩ <;>
    simp only [endpoint, reduceCtorEq] at hendpoint
  · obtain rfl : reason = reason' := hparams
    rfl
  · obtain rfl : reason = reason' := hparams
    rfl
  · obtain rfl : reason = reason' := hparams
    rfl
  · obtain ⟨rfl, rfl⟩ := suspendParams_inj hparams
    obtain rfl : reason = reason' := hunsigned
    rfl
  · obtain rfl : dir = dir' := hparams
    have hmanifest : manifest.toOption = manifest'.toOption := hunsigned
    simp only [actedFields, hmanifest]

theorem AdminRequest.unsignedAgree_of_actedFields {r r' : AdminRequest}
    (h : r.actedFields = r'.actedFields) : r.UnsignedAgree r' := by
  rcases r with reason | reason | reason | ⟨client, n, reason⟩ | ⟨dir, manifest⟩ <;>
    rcases r' with reason' | reason' | reason' | ⟨client', n', reason'⟩ | ⟨dir', manifest'⟩ <;>
    try trivial
  · exact Option.some.inj (congrArg ActedFields.reason h)
  · exact congrArg ActedFields.manifest h

/-- **What an admin signature binds.** Two requests with one signature that a node with an admin key
accepts go to one endpoint and agree on every field that the endpoint acts on **exactly if** they
agree on the reason of a suspension and on the manifest to register. -/
theorem admin_signature_binds_iff (E : Ed25519) (keys : AdminKeys) (vk : VerifyingKey)
    (hkey : keys.adminVk = some vk) (hbinds : vk.BindsMessages E) (r r' : AdminRequest)
    (adminSignature : String) (h : r.authorize E keys adminSignature = .ok ())
    (h' : r'.authorize E keys adminSignature = .ok ()) :
    r.actedFields = r'.actedFields ↔ r.UnsignedAgree r' := by
  refine ⟨AdminRequest.unsignedAgree_of_actedFields, fun hunsigned ↦ ?_⟩
  obtain ⟨signature, hsig, hverify⟩ := (AdminRequest.authorize_eq_ok_iff hkey).1 h
  obtain ⟨signature', hsig', hverify'⟩ := (AdminRequest.authorize_eq_ok_iff hkey).1 h'
  -- one text is one signature, and one signature is one message
  obtain rfl := Except.ok.inj (hsig.symm.trans hsig')
  obtain ⟨hendpoint, hparams⟩ :=
    adminCanonical_inj (Text.asBytes_injective (hbinds _ _ _ hverify hverify'))
  exact AdminRequest.actedFields_eq hendpoint hparams hunsigned

/-! ### A replayed registration -/

namespace SampleCommand

/-- A primitive whose key has signed one message. -/
def signedOnly (msg : Bytes) : Ed25519 where
  publicKey _ := []
  sign _ _ := ⟨List.replicate 64 0, Signature.length_zeros⟩
  decodePoint _ := .ok ()
  verify _ msg' _ := decide (msg' = msg)

/-- The node's admin key. -/
def key : VerifyingKey :=
  ⟨List.replicate 32 7⟩

def adminKeys : AdminKeys :=
  ⟨some key, false⟩

/-- A signature, and the text that carries it in a request. -/
def signed : Signature :=
  ⟨List.replicate 64 0, Signature.length_zeros⟩

def signature : String :=
  signed.toHex

theorem fromHex_signature :
    Signature.fromHex (String.ofList (Text.trim signature.toList)) = .ok signed := by
  rw [signature, Signature.toHex, Text.hexEncode, String.toList_ofList, Text.trim_hexChars]
  exact Signature.fromHex_toHex signed

theorem bindsMessages (msg : Bytes) : key.BindsMessages (signedOnly msg) := by
  have hverify : ∀ msg' sig, key.verify (signedOnly msg) msg' sig = .ok () → msg' = msg := by
    intro msg' sig h
    simpa [VerifyingKey.verify, signedOnly] using h
  intro msg₁ msg₂ sig h₁ h₂
  exact (hverify msg₁ sig h₁).trans (hverify msg₂ sig h₂).symm

/-- The bytes that an operator signs for a request. -/
def signedBytes (request : AdminRequest) : Bytes :=
  Text.asBytes (adminCanonical request.endpoint.action request.params)

/-- Suspend a client whose name has a colon in it. -/
def suspension (reason : String) : AdminRequest :=
  .suspendClient "team:alice" 3600 reason

/-- Register a version of the sample bundle from the directory `sample`. -/
def registration (modelVersion : String) : AdminRequest :=
  .provisionModel "sample" (.ok { SampleBundle.manifest with modelVersion })

/-- What verifies is authorized. -/
theorem authorize_of_verify {E : Ed25519} {request : AdminRequest}
    (h : key.verify E (signedBytes request) signed = .ok ()) :
    request.authorize E adminKeys signature = .ok () :=
  (AdminRequest.authorize_eq_ok_iff rfl).2 ⟨signed, fromHex_signature, h⟩

theorem authorize_signed (request : AdminRequest) :
    request.authorize (signedOnly (signedBytes request)) adminKeys signature = .ok () :=
  authorize_of_verify (by simp [VerifyingKey.verify, signedOnly])

end SampleCommand

open SampleCommand in
/-- One signature suspends a client for two reasons. -/
theorem admin_signature_binds_iff_sample :
    ¬(suspension "probing").UnsignedAgree (suspension "maintenance") ∧
      (suspension "probing").actedFields ≠ (suspension "maintenance").actedFields := by
  have hunsigned : ¬(suspension "probing").UnsignedAgree (suspension "maintenance") := by
    show "probing" ≠ "maintenance"
    decide
  refine ⟨hunsigned, mt (admin_signature_binds_iff _ adminKeys key rfl (bindsMessages _) _ _
    signature (authorize_signed (suspension "probing")) ?_).1 hunsigned⟩
  exact authorize_signed (suspension "maintenance")

open SampleCommand in
/-- **A registration's signature registers another manifest.** Only the directory was signed. -/
theorem replayed_registration :
    ¬∀ (E : Ed25519) (keys : AdminKeys) (vk : VerifyingKey) (r r' : AdminRequest)
      (adminSignature : String), keys.adminVk = some vk → vk.BindsMessages E →
      r.authorize E keys adminSignature = .ok () → r'.authorize E keys adminSignature = .ok () →
      r.actedFields = r'.actedFields := by
  intro hall
  have hsame := hall _ adminKeys key (registration "1") (registration "2") signature rfl
    (bindsMessages _) (authorize_signed (registration "1")) (authorize_signed (registration "2"))
  have hversion := congrArg (fun fields ↦ fields.manifest.map BundleManifest.modelVersion) hsame
  exact absurd hversion (by decide)

end Cordon
