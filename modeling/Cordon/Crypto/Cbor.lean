import Cordon.Crypto.Signing
import Cordon.Lib.Result

/-!
# The CBOR reader for attestation documents

A deliberately small decoder. It reads definite-length items only, checks every declared length
against the bytes that are left, bounds the nesting and the number of items, and refuses bytes after
the end.

The reader's recursion is on the levels of nesting that are still allowed, so it is structural; the
loops over the elements of a container are `repeatRead`.

Nothing is proved here. What the reader accepts is described in `Crypto.CborGrammar` without the
reader, and that description is what the proofs about documents use. The three writers at the end
are those of the signed structure, which `Crypto.SigStructure` is about.
-/

namespace Cordon

/-- A decoded value, restricted to the types an attestation document uses. -/
inductive CborValue
  | unsigned (n : ℕ)
  | negative (n : ℤ)
  | bytes (bs : Bytes)
  | text (s : String)
  | array (items : List CborValue)
  | map (entries : List (CborValue × CborValue))
  | bool (b : Bool)
  | null

namespace CborValue

/-- A short name for the value's type, for error messages. -/
def typeName : CborValue → String
  | .unsigned _ => "an unsigned integer"
  | .negative _ => "a negative integer"
  | .bytes _ => "a byte string"
  | .text _ => "a text string"
  | .array _ => "an array"
  | .map _ => "a map"
  | .bool _ => "a boolean"
  | .null => "null"

/-- The error of a field of the wrong type. -/
def typeError (field expected : String) (found : CborValue) : CryptoError :=
  .attestationFailed ("`" ++ field ++ "` should be " ++ expected ++ ", but the document has " ++
    typeName found)

/-- The value as a byte string. -/
def asBytes (field : String) : CborValue → Except CryptoError Bytes
  | .bytes bs => .ok bs
  | other => .error (typeError field "a byte string" other)

/-- The value as text. -/
def asText (field : String) : CborValue → Except CryptoError String
  | .text s => .ok s
  | other => .error (typeError field "a text string" other)

/-- The value as an unsigned integer. -/
def asU64 (field : String) : CborValue → Except CryptoError ℕ
  | .unsigned n => .ok n
  | other => .error (typeError field "an unsigned integer" other)

/-- The value as an integer, negative or not. -/
def asI64 (field : String) : CborValue → Except CryptoError ℤ
  | .unsigned n =>
    if n < 2 ^ 63 then .ok n
    else .error (.attestationFailed (field ++ " is too large to be an integer"))
  | .negative n => .ok n
  | other => .error (typeError field "an integer" other)

/-- The value as an array. -/
def asArray (field : String) : CborValue → Except CryptoError (List CborValue)
  | .array items => .ok items
  | other => .error (typeError field "an array" other)

/-- The value as a map. -/
def asMap (field : String) : CborValue → Except CryptoError (List (CborValue × CborValue))
  | .map entries => .ok entries
  | other => .error (typeError field "a map" other)

/-- Whether a value is the text `key`. -/
def isText (key : String) : CborValue → Bool
  | .text t => t == key
  | _ => false

/-- Look up a text key in a map, refusing a map that carries it twice. -/
def get (doc : CborValue) (key : String) : Except CryptoError (Option CborValue) := do
  let entries ← asMap key doc
  match entries.filter fun entry ↦ isText key entry.1 with
  | [] => return none
  | [(_, v)] => return some v
  | _ => throw (.attestationFailed ("the attestation document carries the key `" ++ key ++
      "` more than once; a verifier cannot tell which one the signer meant"))

/-- Look up a text key that must be present and must not be `null`. -/
def require (doc : CborValue) (key : String) : Except CryptoError CborValue := do
  match ← get doc key with
  | some .null => throw (.attestationFailed ("the attestation document has no `" ++ key ++ "`"))
  | some v => return v
  | none => throw (.attestationFailed ("the attestation document has no `" ++ key ++ "`"))

/-- Whether a value is the integer `key`. -/
def isInt (key : ℤ) : CborValue → Bool
  | .unsigned n => decide (n < 2 ^ 63) && (n : ℤ) == key
  | .negative n => n == key
  | _ => false

/-- Look up an integer key in a map. -/
def getInt (doc : CborValue) (key : ℤ) (field : String) :
    Except CryptoError (Option CborValue) := do
  let entries ← asMap field doc
  return (entries.find? fun entry ↦ isInt key entry.1).map Prod.snd

end CborValue

namespace Cbor

/-! ### Decoding -/

/-- Deepest nesting of a document. -/
def maxDepth : ℕ := 16

/-- Most items in one document. -/
def maxItems : ℕ := 4096

/-- The reader: the bytes, how many have been read, and how many items. -/
structure Reader where
  bytes : Bytes
  position : ℕ
  items : ℕ

/-- Reading moves the reader, or refuses. -/
abbrev Read (α : Type) : Type :=
  StateT Reader (Except CryptoError) α

/-- Refuse with a message. -/
def refuse {α : Type} (message : String) : Read α :=
  throw (.attestationFailed message)

/-- The next `count` bytes. -/
def take (count : ℕ) : Read Bytes := do
  let r ← get
  if r.bytes.length - r.position < count then
    refuse ("the CBOR document declares " ++
      toString (count - (r.bytes.length - r.position)) ++ " more bytes than it contains")
  else
    set { r with position := r.position + count }
    return (r.bytes.drop r.position).take count

/-- The argument that follows an initial byte. -/
def argument (initial : UInt8) : Read ℕ := do
  let low := (initial &&& 0x1F).toNat
  if low ≤ 23 then return low
  else if low = 24 then return Bytes.ofBe (← take 1)
  else if low = 25 then return Bytes.ofBe (← take 2)
  else if low = 26 then return Bytes.ofBe (← take 4)
  else if low = 27 then return Bytes.ofBe (← take 8)
  else if low = 31 then
    refuse ("the CBOR document uses an indefinite-length item, which an " ++
      "attestation document does not")
  else refuse ("the CBOR document uses reserved additional information " ++ toString low)

/-- A declared length, checked against what is left. -/
def length (declared : ℕ) (unit : String) : Read ℕ := do
  let r ← get
  let remaining := r.bytes.length - r.position
  if remaining < declared then
    refuse ("the CBOR document declares " ++ toString declared ++ " " ++ unit ++ " but only " ++
      toString remaining ++ " bytes remain")
  else return declared

/-- Count one more item. -/
def countItem : Read Unit := do
  let r ← get
  set { r with items := r.items + 1 }
  if maxItems < r.items + 1 then
    refuse ("the CBOR document holds more than " ++ toString maxItems ++
      " items; an attestation document holds fewer than a hundred")

/-- Read `count` times. -/
def repeatRead {α : Type} (read : Read α) : ℕ → Read (List α)
  | 0 => return []
  | count + 1 => do
    let first ← read
    let rest ← repeatRead read count
    return first :: rest

/-- One item, with `levels` levels of nesting still allowed below and including it. -/
def value : ℕ → Read CborValue
  | 0 => refuse ("the CBOR document nests more than " ++ toString maxDepth ++ " deep")
  | levels + 1 => do
    countItem
    let initial := (← take 1).headD 0
    match (initial >>> 5).toNat with
    | 0 => return .unsigned (← argument initial)
    | 1 =>
      let n ← argument initial
      if n < 2 ^ 63 then return .negative (-1 - n)
      else refuse "the CBOR document holds a negative integer too large to represent"
    | 2 =>
      let len ← length (← argument initial) "bytes"
      return .bytes (← take len)
    | 3 =>
      let len ← length (← argument initial) "bytes of text"
      match Utf8.decode (← take len) with
      | some text => return .text (String.ofList text)
      | none => refuse "the CBOR document holds a text string that is not valid UTF-8"
    | 4 =>
      let count ← length (← argument initial) "array elements"
      return .array (← repeatRead (value levels) count)
    | 5 =>
      let count ← length (← argument initial) "map entries"
      return .map (← repeatRead (do return (← value levels, ← value levels)) count)
    | 6 => refuse "the CBOR document uses a tag, which an attestation document does not"
    | _ =>
      let low := (initial &&& 0x1F).toNat
      if low = 20 then return .bool false
      else if low = 21 then return .bool true
      else if low = 22 then return .null
      else if low = 23 then
        refuse "the CBOR document holds `undefined`, which is not a value a verifier can act on"
      else refuse ("the CBOR document holds simple value or float " ++ toString low ++
        ", which an attestation document does not use")

/-- `decode`: one item, which must account for every byte given. -/
def decode (bytes : Bytes) : Except CryptoError CborValue := do
  let (v, r) ← (value (maxDepth + 1)).run ⟨bytes, 0, 0⟩
  if r.position ≠ bytes.length then
    throw (.attestationFailed (toString (bytes.length - r.position) ++
      " bytes remain after the end of the CBOR document; something has been appended to it"))
  return v

/-! ### Encoding what a signature covers -/

/-- An initial byte and its argument in the shortest form. -/
def writeHeader (major : UInt8) (argument : ℕ) : Bytes :=
  let high := major <<< 5
  if argument ≤ 23 then [high ||| UInt8.ofNat argument]
  else if argument ≤ 0xFF then [high ||| 24, UInt8.ofNat argument]
  else if argument ≤ 0xFFFF then (high ||| 25) :: Bytes.beBytes 2 argument
  else if argument ≤ 0xFFFFFFFF then (high ||| 26) :: Bytes.beBytes 4 argument
  else (high ||| 27) :: Bytes.beBytes 8 argument

/-- A definite-length byte string. -/
def writeBytes (bs : Bytes) : Bytes :=
  writeHeader 2 bs.length ++ bs

/-- A definite-length text string. -/
def writeText (text : String) : Bytes :=
  writeHeader 3 (Text.asBytes text).length ++ Text.asBytes text

/-- `sig_structure_single_signer`: what a COSE_Sign1 signature is computed over. -/
def sigStructureSingleSigner (protectedHeader externalAad payload : Bytes) : Bytes :=
  writeHeader 4 4 ++ writeText "Signature1" ++ writeBytes protectedHeader ++
    writeBytes externalAad ++ writeBytes payload

end Cbor

end Cordon
