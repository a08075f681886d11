import Cordon.Crypto.CborGrammar

/-!
# The shortest encoding, and what a COSE signature covers

An argument can be written in up to five widths, so a value has many encodings. `Shortest v bs` says
that the bytes encode the value and that every other encoding of it is longer. The header writer
takes the narrowest width that its argument fits (`head_eq_or_longer`), and arrays of items in
their shortest form are in theirs (`Shortest.array`).

**What a COSE_Sign1 signature covers is the shortest encoding of an array of four items**, the
decoder returns that array, and different headers, external data or payloads never have it in common
(`sigStructure_unambiguous`).

The three parts rest on different facts. That the encoding is the shortest rests on the header, the
only part of an encoding that leaves a choice (`head_eq_or_longer`). That the decoder returns the
array is the grammar of `Crypto.CborGrammar` at an array that is within all its limits. That nothing
else is covered by the same bytes is that the decoder is a function.
-/

namespace Cordon

namespace Cbor

/-- The bytes encode the value, and every other encoding of it is longer. -/
structure Shortest (v : CborValue) (bs : Bytes) : Prop where
  encodes : Encodes v bs
  eq_or_longer : ∀ other, Encodes v other → other = bs ∨ bs.length < other.length

/-! ### Headers -/

/-- An initial byte is given by its major type and its low bits. -/
theorem initial_eq {initial : UInt8} {major low : ℕ} (hmajor : initial.toNat / 32 = major)
    (hlow : initial.toNat % 32 = low) :
    initial = UInt8.ofNat major <<< 5 ||| UInt8.ofNat low := by
  have hbyte : initial.toNat < 256 := initial.toNat_lt
  rw [← UInt8.toNat_inj, toNat_initial (by omega) (by omega)]
  omega

/-- Bytes of one width are the number's spelling in that width, and the number fits it. -/
theorem wide_eq {initial : UInt8} {major low w : ℕ} {bs : Bytes}
    (hmajor : initial.toNat / 32 = major) (hlow : initial.toNat % 32 = low)
    (hlength : bs.length = w) :
    initial :: bs =
        (UInt8.ofNat major <<< 5 ||| UInt8.ofNat low) :: Bytes.beBytes w (Bytes.ofBe bs) ∧
      Bytes.ofBe bs < 256 ^ w := by
  rw [← hlength, Bytes.beBytes_ofBe, ← initial_eq hmajor hlow]
  exact ⟨rfl, Bytes.ofBe_lt bs⟩

/-- **The header writer is the shortest**: every other header with the same argument is longer. -/
theorem head_eq_or_longer {major n : ℕ} {head : Bytes} (h : Head major n head) :
    head = writeHeader (UInt8.ofNat major) n ∨
      (writeHeader (UInt8.ofNat major) n).length < head.length := by
  obtain ⟨hmajor, hargument⟩ := h
  generalize hlow : _ % 32 = low at hargument
  unfold writeHeader
  -- a width is given up only for a narrower one
  cases hargument with
  | direct hn =>
    rw [if_pos hn]
    exact Or.inl (congrArg (fun b ↦ [b]) (initial_eq hmajor hlow))
  | one hlength =>
    obtain ⟨heq, hlt⟩ := wide_eq hmajor hlow hlength
    split_ifs
    · exact Or.inr (by simp [hlength])
    · exact Or.inl heq
    all_goals omega
  | two hlength =>
    obtain ⟨heq, hlt⟩ := wide_eq hmajor hlow hlength
    split_ifs
    · exact Or.inr (by simp [hlength])
    · exact Or.inr (by simp [hlength])
    · exact Or.inl heq
    all_goals omega
  | four hlength =>
    obtain ⟨heq, hlt⟩ := wide_eq hmajor hlow hlength
    split_ifs
    · exact Or.inr (by simp [hlength])
    · exact Or.inr (by simp [hlength])
    · exact Or.inr (by simp [hlength])
    · exact Or.inl heq
    · omega
  | eight hlength =>
    obtain ⟨heq, hlt⟩ := wide_eq hmajor hlow hlength
    split_ifs
    · exact Or.inr (by simp [hlength])
    · exact Or.inr (by simp [hlength])
    · exact Or.inr (by simp [hlength])
    · exact Or.inr (by simp [hlength])
    · exact Or.inl heq

/-! ### Items -/

theorem shortest_writeBytes {bs : Bytes} (h : bs.length < 2 ^ 64) :
    Shortest (.bytes bs) (writeBytes bs) where
  encodes := encodes_writeBytes h
  eq_or_longer other hother := by
    cases hother with
    | bytes hhead =>
      rcases head_eq_or_longer hhead with rfl | hlonger
      · exact Or.inl rfl
      · refine Or.inr ?_
        rw [writeBytes, List.length_append, List.length_append]
        exact Nat.add_lt_add_right hlonger _

theorem shortest_writeText {s : String} (h : (Text.asBytes s).length < 2 ^ 64) :
    Shortest (.text s) (writeText s) where
  encodes := encodes_writeText h
  eq_or_longer other hother := by
    cases hother with
    | text hhead =>
      rcases head_eq_or_longer hhead with rfl | hlonger
      · exact Or.inl rfl
      · refine Or.inr ?_
        rw [writeText, List.length_append, List.length_append]
        exact Nat.add_lt_add_right hlonger _

/-- Items in their shortest form, one after the other: every other way to write them is longer. -/
theorem flatten_eq_or_longer {vs : List CborValue} {outs others : List Bytes}
    (h : List.Forall₂ Shortest vs outs) (hothers : List.Forall₂ Encodes vs others) :
    others = outs ∨ outs.flatten.length < others.flatten.length := by
  induction h generalizing others with
  | nil =>
    cases hothers
    exact Or.inl rfl
  | cons hfirst _ ih =>
    cases hothers with
    | cons hother hrest =>
      simp only [List.flatten_cons, List.length_append]
      rcases hfirst.eq_or_longer _ hother with rfl | hlonger
      · rcases ih hrest with rfl | hlonger
        · exact Or.inl rfl
        · exact Or.inr (by omega)
      · rcases ih hrest with rfl | hlonger'
        · exact Or.inr (by omega)
        · exact Or.inr (by omega)

/-- **An array of items in their shortest form is in its shortest form.** -/
theorem Shortest.array {vs : List CborValue} {outs : List Bytes}
    (h : List.Forall₂ Shortest vs outs) (hcount : vs.length < 2 ^ 64) :
    Shortest (.array vs) (writeHeader 4 vs.length ++ outs.flatten) where
  encodes := .array (head_writeHeader (show 4 < 8 by decide) hcount)
    (h.imp fun _ _ hshortest ↦ hshortest.encodes)
  eq_or_longer other hother := by
    cases hother with
    | array hhead hbodies =>
      simp only [List.length_append]
      rcases head_eq_or_longer hhead with rfl | hlonger
      · rcases flatten_eq_or_longer h hbodies with rfl | hlonger
        · exact Or.inl rfl
        · exact Or.inr (Nat.add_lt_add_left hlonger _)
      · rcases flatten_eq_or_longer h hbodies with rfl | hlonger'
        · exact Or.inr (Nat.add_lt_add_right hlonger _)
        · exact Or.inr (Nat.add_lt_add hlonger hlonger')

/-! ### What a signature covers -/

/-- The array that a COSE_Sign1 signature covers. -/
def sigStructure (protectedHeader externalAad payload : Bytes) : CborValue :=
  .array [.text "Signature1", .bytes protectedHeader, .bytes externalAad, .bytes payload]

section SigStructure

variable {protectedHeader externalAad payload : Bytes}

theorem shortest_sigStructure (hheader : protectedHeader.length < 2 ^ 64)
    (haad : externalAad.length < 2 ^ 64) (hpayload : payload.length < 2 ^ 64) :
    Shortest (sigStructure protectedHeader externalAad payload)
      (sigStructureSingleSigner protectedHeader externalAad payload) := by
  have hitems : List.Forall₂ Shortest
      [.text "Signature1", .bytes protectedHeader, .bytes externalAad, .bytes payload]
      [writeText "Signature1", writeBytes protectedHeader, writeBytes externalAad,
        writeBytes payload] :=
    .cons (shortest_writeText (by decide)) (.cons (shortest_writeBytes hheader)
      (.cons (shortest_writeBytes haad) (.cons (shortest_writeBytes hpayload) .nil)))
  have hflatten : sigStructureSingleSigner protectedHeader externalAad payload =
      writeHeader 4 4 ++ [writeText "Signature1", writeBytes protectedHeader,
        writeBytes externalAad, writeBytes payload].flatten := by
    simp [sigStructureSingleSigner]
  rw [hflatten]
  exact Shortest.array hitems (by show 4 < 2 ^ 64; decide)

/-- The array is within every limit of the decoder. -/
theorem decode_sigStructure (hheader : protectedHeader.length < 2 ^ 64)
    (haad : externalAad.length < 2 ^ 64) (hpayload : payload.length < 2 ^ 64) :
    decode (sigStructureSingleSigner protectedHeader externalAad payload) =
      .ok (sigStructure protectedHeader externalAad payload) := by
  rw [decode_iff_encodes]
  refine ⟨(shortest_sigStructure hheader haad hpayload).encodes, ?_, ?_⟩
  · simp [sigStructure, CborValue.height, CborValue.heightOfItems, maxDepth]
  · simp [sigStructure, CborValue.items, CborValue.itemsOfItems, maxItems]

/-- **What a signature covers is unambiguous**: it is the shortest encoding of its array, the
decoder returns the array, and nothing else is covered by the same bytes. -/
theorem sigStructure_unambiguous (hheader : protectedHeader.length < 2 ^ 64)
    (haad : externalAad.length < 2 ^ 64) (hpayload : payload.length < 2 ^ 64) :
    Shortest (sigStructure protectedHeader externalAad payload)
        (sigStructureSingleSigner protectedHeader externalAad payload) ∧
      decode (sigStructureSingleSigner protectedHeader externalAad payload) =
        .ok (sigStructure protectedHeader externalAad payload) ∧
      ∀ protectedHeader' externalAad' payload' : Bytes, protectedHeader'.length < 2 ^ 64 →
        externalAad'.length < 2 ^ 64 → payload'.length < 2 ^ 64 →
        sigStructureSingleSigner protectedHeader externalAad payload =
          sigStructureSingleSigner protectedHeader' externalAad' payload' →
        protectedHeader = protectedHeader' ∧ externalAad = externalAad' ∧ payload = payload' := by
  have hdecode := decode_sigStructure hheader haad hpayload
  refine ⟨shortest_sigStructure hheader haad hpayload, hdecode, ?_⟩
  intro protectedHeader' externalAad' payload' hheader' haad' hpayload' heq
  rw [heq, decode_sigStructure hheader' haad' hpayload'] at hdecode
  simpa [sigStructure, eq_comm] using hdecode

end SigStructure

theorem sigStructure_unambiguous_sample :
    decode (sigStructureSingleSigner [0xA1, 0x01, 0x26] [] [0xDE, 0xAD]) =
      .ok (sigStructure [0xA1, 0x01, 0x26] [] [0xDE, 0xAD]) :=
  (sigStructure_unambiguous (by decide) (by decide) (by decide)).2.1

end Cbor

end Cordon
