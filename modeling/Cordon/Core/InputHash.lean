import Cordon.Core.AttackDetector
import Cordon.Lib.SelfDelimiting

/-!
# What an input hash identifies

`hash_messages` hashes the messages of a conversation one after the other, each as its role and its
content behind their lengths in eight bytes. The fields are self-delimiting and none is empty, so
whatever the contents imitate, **the hashed bytes determine the messages**, how many there are
included. Under a hash without collisions, so do the input hash of the intake record and the key
under which the detector counts a repeated prompt.

The result rests on one fact about each layer. A field behind its length is self-delimiting because
its length fits into eight bytes (`selfDelimiting_sizedText`), which is all that `FitsU64` asks; a
message is two such fields, and is not empty (`length_hashed_pos`), so a row of messages can be read
in one way only (`hashedMessages_inj`). What goes into the intake record and what goes into the
replay key is this one byte string (`replayProbes_recordInputHash`), and freedom from collisions is
asked of the two byte strings that are compared and of no others.
-/

namespace Cordon

/-- A role and a content, each behind its length. -/
def Message.hashed (m : Message) : Bytes :=
  (Bytes.leBytes 8 (Text.asBytes m.role).length ++ Text.asBytes m.role) ++
    (Bytes.leBytes 8 (Text.asBytes m.content).length ++ Text.asBytes m.content)

/-- The bytes that `hash_messages` gives to the hash function. -/
def hashedMessages (messages : List Message) : Bytes :=
  messages.flatMap Message.hashed

/-- The lengths of a message fit into the eight bytes they are written in. -/
def Message.FitsU64 (m : Message) : Prop :=
  (Text.asBytes m.role).length < 2 ^ 64 ∧ (Text.asBytes m.content).length < 2 ^ 64

/-- The key under which the detector counts a prompt. -/
def InferenceCall.replayKey (call : InferenceCall) : String × String :=
  (call.client.clientId, Gateway.hashMessages call.messages)

/-- The input hash of an inference record. -/
def AuditEvent.inputHash : AuditEvent → Option String
  | .inference e => some e.inputHash
  | _ => none

theorem hashMessages_eq (messages : List Message) :
    Gateway.hashMessages messages = Sha256.digestHex (hashedMessages messages) := by
  rw [Gateway.hashMessages, hashedMessages]
  refine congrArg Sha256.digestHex (List.flatMap_congr fun m _ ↦ ?_)
  rw [Message.hashed, List.append_assoc, List.append_assoc]

/-- A prompt is counted under the replay key of its request. -/
theorem replayProbes_recordInputHash (config : AttackDetectorConfig) (s : DetectorState) (now : ℤ)
    (call : InferenceCall) :
    (s.recordInputHash config now call.client.clientId
        (Gateway.hashMessages call.messages)).1.replayProbes =
      (s.replayProbes.record now call.replayKey).1 := by
  rw [DetectorState.recordInputHash, InferenceCall.replayKey]
  rcases s.replayProbes.record now _ with ⟨probes, - | count⟩
  · rfl
  · simp only
    split <;> rfl

/-- A string behind its length is self-delimiting. -/
theorem selfDelimiting_sizedText :
    Bytes.SelfDelimiting {s : String | (Text.asBytes s).length < 2 ^ 64}
      fun s ↦ Bytes.leBytes 8 (Text.asBytes s).length ++ Text.asBytes s :=
  .sized (fun _ hs ↦ lt_of_lt_of_eq hs (by norm_num)) Text.asBytes_injective.injOn

/-- So is a message. -/
theorem selfDelimiting_hashed : Bytes.SelfDelimiting {m | m.FitsU64} Message.hashed := by
  intro m hm m' hm' x y heq
  obtain ⟨hfields, hrest⟩ := selfDelimiting_sizedText.prod selfDelimiting_sizedText
    (a := (m.role, m.content)) hm (b := (m'.role, m'.content)) hm' heq
  obtain ⟨hrole, hcontent⟩ := Prod.mk.inj hfields
  refine ⟨?_, hrest⟩
  rcases m with ⟨role, content⟩
  rcases m' with ⟨role', content'⟩
  exact congrArg₂ Message.mk hrole hcontent

theorem length_hashed_pos (m : Message) : 0 < m.hashed.length := by
  rw [Message.hashed, List.length_append, List.length_append, Bytes.length_leBytes]
  omega

/-- **The hashed bytes determine the conversation.** -/
theorem hashedMessages_inj {messages messages' : List Message}
    (h : ∀ m ∈ messages, m.FitsU64) (h' : ∀ m ∈ messages', m.FitsU64)
    (heq : hashedMessages messages = hashedMessages messages') : messages = messages' :=
  selfDelimiting_hashed.flatMap_inj length_hashed_pos h h' heq

/-- **The input hash identifies the conversation.** Two lists of messages whose lengths fit into 64
bits are the same if the same bytes are hashed for them; and if the hash function does not collide
on these, they are the same if the intake records of two requests have the same input hash for
them, or if two requests are counted under the same key, which is then of one client. -/
theorem input_hash_identifies_messages (messages messages' : List Message)
    (h : ∀ m ∈ messages, m.FitsU64) (h' : ∀ m ∈ messages', m.FitsU64) :
    (hashedMessages messages = hashedMessages messages' → messages = messages') ∧
      (Sha256.CollisionFreeOn {hashedMessages messages, hashedMessages messages'} →
        ∀ call call' : InferenceCall, call.messages = messages → call'.messages = messages' →
          (∀ {T : TextEngine} (g g' : Gateway T) (o o' : Occasion T) (sessionId sessionId' : Uuid),
              (g.intakeEvent call o sessionId).inputHash =
                (g'.intakeEvent call' o' sessionId').inputHash → messages = messages') ∧
            (call.replayKey = call'.replayKey →
              call.client.clientId = call'.client.clientId ∧ messages = messages')) := by
  refine ⟨hashedMessages_inj h h', ?_⟩
  rintro hfree call call' rfl rfl
  have hhash : Gateway.hashMessages call.messages = Gateway.hashMessages call'.messages →
      call.messages = call'.messages := by
    intro heq
    rw [hashMessages_eq, hashMessages_eq] at heq
    exact hashedMessages_inj h h'
      (hfree.eq_of_digestHex (Set.mem_insert _ _) (Set.mem_insert_of_mem _ rfl) heq)
  constructor
  · intro T g g' o o' sessionId sessionId' heq
    exact hhash (Option.some.inj heq)
  · intro heq
    obtain ⟨hclient, hmessages⟩ := Prod.mk.inj heq
    exact ⟨hclient, hhash hmessages⟩

/-- Two conversations whose contents are the same one after the other are hashed apart. -/
theorem input_hash_identifies_messages_sample :
    hashedMessages [⟨"user", "ab"⟩, ⟨"user", "c"⟩] ≠
      hashedMessages [⟨"user", "a"⟩, ⟨"user", "bc"⟩] := by
  refine fun heq ↦ absurd ((input_hash_identifies_messages _ _ ?_ ?_).1 heq) (by decide)
  · intro m hm
    rcases List.mem_pair.1 hm with rfl | rfl
    · exact ⟨by decide, by decide⟩
    · exact ⟨by decide, by decide⟩
  · intro m hm
    rcases List.mem_pair.1 hm with rfl | rfl
    · exact ⟨by decide, by decide⟩
    · exact ⟨by decide, by decide⟩

end Cordon
