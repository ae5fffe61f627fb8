import AggregatedRecords.Proofs.Record.Schema
import AggregatedRecords.Proofs.Validation.OtherSettings
/-!
# Record — payloads one after the other

Behind a payload that decodes, octets decode as they do by themselves, with what
was there in front of it (`AggregatedRecord.decode_append`): a payload is its
fields, and where one field ends and the next begins is told by the octets of
the field alone. So fields that the schema does not know may be put in at the end
of any field, and neither the message nor what a validator makes of it changes
(`AggregatedRecord.decode_insert`, `Checks.decoded_examine_insert`).
-/

namespace AggregatedRecords

open Wire

namespace AggregatedRecord

variable {front inserted behind x y : Bytes} {a message : AggregatedRecord}

/-! ## Messages one after the other -/

/-- A message and another one behind it. -/
def append (a b : AggregatedRecord) : AggregatedRecord where
  partitionKeyTable := a.partitionKeyTable ++ b.partitionKeyTable
  explicitHashKeyTable := a.explicitHashKeyTable ++ b.explicitHashKeyTable
  records := a.records ++ b.records

/-- Fields are put behind what a message has already. -/
theorem commutes_step (a : AggregatedRecord) (depth : Nat) : Commutes (step depth) a.append := by
  rintro ⟨number, wireType⟩ message u
  match number with
  | 1 | 2 | 3 => exact run_within_put_map (fun _ => by simp [append]) _ u
  | 0 | _ + 4 =>
    have hsame : ∀ x : Unit, (fun _ => a.append message) x = a.append ((fun _ => message) x) :=
      fun _ => rfl
    exact run_put_map hsame u

/-- **Behind a payload that decodes**, octets decode to what they are by
themselves, behind the message that was there. -/
theorem decode_append (hx : decode x = .ok a) : decode (x ++ y) = (decode y).map a.append := by
  have hempty : a.append .empty = a := by simp [append, empty]
  exact Wire.decode_append absorbs.isLocal (commutes_step a depthLimit) (hempty.symm ▸ hx)

/-! ## Fields that are not known -/

/-- Octets are whole fields of a payload, be they known or not. -/
def AreFields (b : Bytes) : Prop := ∃ fields, fieldsAt 0 b = .ok fields

/-- Octets are fields of a payload none of which is known. -/
def Foreign (b : Bytes) : Prop :=
  ∃ fields, fieldsAt 0 b = .ok fields ∧ ∀ field ∈ fields, field.number ∉ [1, 2, 3]

/-- A payload that decodes is whole fields. -/
theorem areFields_of_decode (h : decode x = .ok a) : AreFields x := by
  obtain ⟨fields, hfields, -⟩ := ofOctets?_eq_some_iff.1 (decode_eq_ok_iff.1 h)
  exact ⟨fields, hfields⟩

/-- What is read of a payload does not depend on fields that are not known. -/
theorem ofFields?_insert {before fields after : List Field}
    (h : ∀ field ∈ fields, field.number ∉ [1, 2, 3]) :
    ofFields? (before ++ (fields ++ after)) = ofFields? (before ++ after) := by
  have hother {number : Nat} (hnumber : number ∈ [1, 2, 3]) :
      ∀ field ∈ fields, field.number ≠ number := by
    rintro field hmem rfl
    exact h field hmem hnumber
  simp only [ofFields?, valuesOf_insert _ (hother (by decide : 1 ∈ _)),
    valuesOf_insert _ (hother (by decide : 2 ∈ _)), valuesOf_insert _ (hother (by decide : 3 ∈ _))]

/-- **Fields that are not known may be put in** at the end of any field. -/
theorem decode_insert (hfront : AreFields front) (hinserted : Foreign inserted) :
    decode (front ++ (inserted ++ behind)) = .ok message ↔
      decode (front ++ behind) = .ok message := by
  obtain ⟨before, hbefore⟩ := hfront
  obtain ⟨fields, hfields, hforeign⟩ := hinserted
  rw [decode_eq_ok_iff, decode_eq_ok_iff, ofOctets?, ofOctets?, fieldsAt_append hbefore,
    fieldsAt_append hbefore, fieldsAt_append hfields]
  cases fieldsAt 0 behind with
  | error e => rfl
  | ok after =>
    change ofFields? (before ++ (fields ++ after)) = _ ↔ ofFields? (before ++ after) = _
    rw [ofFields?_insert hforeign]

/-- A payload without fields is the message without fields. -/
theorem decode_nil : decode [] = .ok .empty := decode_of_folds (Folds.nil _)

/-- **What is not known decodes to nothing**, and nothing else does. -/
theorem foreign_iff {b : Bytes} : Foreign b ↔ decode b = .ok .empty := by
  constructor
  · intro h
    have hinsert : decode ([] ++ (b ++ [])) = .ok .empty ↔ decode ([] ++ []) = .ok .empty :=
      decode_insert ⟨[], fieldsAt_nil 0⟩ h
    rw [List.nil_append, List.append_nil, List.nil_append] at hinsert
    exact hinsert.2 decode_nil
  · intro h
    obtain ⟨fields, hfields, hread⟩ := ofOctets?_eq_some_iff.1 (decode_eq_ok_iff.1 h)
    simp only [ofFields?, Option.bind_eq_bind, Option.bind_eq_some_iff] at hread
    obtain ⟨partitionKeys, hpartition, hashKeys, hhash, records, hrecords, hempty⟩ := hread
    obtain ⟨rfl, rfl, rfl⟩ : partitionKeys = [] ∧ hashKeys = [] ∧ records = [] := by
      simpa [empty] using hempty
    refine ⟨fields, hfields, ?_⟩
    -- a field with a known number would have a value among them
    rintro ⟨number, content⟩ hmem hnumber
    simp only [List.mem_cons, List.not_mem_nil, or_false] at hnumber
    obtain rfl | rfl | rfl := hnumber
    · obtain ⟨_, hnone, -⟩ := exists_mem_of_valuesOf hpartition hmem
      cases hnone
    · obtain ⟨_, hnone, -⟩ := exists_mem_of_valuesOf hhash hmem
      cases hnone
    · obtain ⟨_, hnone, -⟩ := exists_mem_of_valuesOf hrecords hmem
      cases hnone

end AggregatedRecord

/-! ## Validators -/

namespace Checks

variable {checks : Checks} {payload front inserted behind : Bytes}

/-- What a result tells of an input, its lengths aside: the message with its user
records, or of what kind the error is. -/
def decoded (result : Except ValidationError Validated) :
    Except String (AggregatedRecord × Option (List UserRecord)) :=
  (result.map fun r => (r.record, r.userRecords)).mapError ValidationError.kind

/-- A frame within the limit comes to what its payload does. -/
theorem result_examine_encode
    (h : ∀ limit, checks.maxFrameBytes = some limit →
      (checks.format.encode payload).length ≤ limit.toNat) :
    (checks.examine (checks.format.encode payload)).result =
      ((AggregatedRecord.decode payload).mapError .undecodable).bind fun record =>
        (checks.resolve record).result.map fun userRecords =>
          ⟨record, userRecords, payload.length, (checks.format.encode payload).length⟩ := by
  have hlimit : (checks.requireLength (checks.format.encode payload).length).result = .ok () :=
    requireLength_eq_ok_iff.2 h
  rw [result_examine, hlimit, FrameFormat.parse_encode, ← FrameFormat.length_view]
  rfl

/-- **Fields that are not known are not seen**, as long as the frame is within the
limit with them. -/
theorem decoded_examine_insert (hfront : AggregatedRecord.AreFields front)
    (hinserted : AggregatedRecord.Foreign inserted)
    (hlimit : ∀ limit, checks.maxFrameBytes = some limit →
      (checks.format.encode (front ++ (inserted ++ behind))).length ≤ limit.toNat) :
    decoded (checks.examine (checks.format.encode (front ++ (inserted ++ behind)))).result =
      decoded (checks.examine (checks.format.encode (front ++ behind))).result := by
  have hshort : ∀ limit, checks.maxFrameBytes = some limit →
      (checks.format.encode (front ++ behind)).length ≤ limit.toNat := by
    intro limit hsome
    refine Nat.le_trans ?_ (hlimit limit hsome)
    simp only [FrameFormat.length_encode_eq, List.length_append]
    omega
  have hsame (message : AggregatedRecord) :
      AggregatedRecord.decode (front ++ (inserted ++ behind)) = .ok message ↔
        AggregatedRecord.decode (front ++ behind) = .ok message :=
    AggregatedRecord.decode_insert hfront hinserted
  rw [result_examine_encode hlimit, result_examine_encode hshort]
  cases hlong : AggregatedRecord.decode (front ++ (inserted ++ behind)) with
  | ok message =>
    rw [(hsame message).1 hlong]
    simp only [Except.mapError, Except.bind]
    cases (checks.resolve message).result <;> rfl
  | error cause =>
    -- neither is a message, though it may be found out at another octet
    cases hplain : AggregatedRecord.decode (front ++ behind) with
    | ok message =>
      rw [(hsame message).2 hplain] at hlong
      cases hlong
    | error cause' => rfl

end Checks

/-- **Decoding takes octets one after the other to messages one after the other.**
Behind a payload that decodes, octets decode to what they are by themselves,
behind its tables and its records. Octets without a known field are those that
decode to nothing, and they may be put in wherever a field ends, as at the end
of any payload that decodes: neither the message changes nor what a validator
makes of it, unless the frame gets too long for it. -/
theorem AggregatedRecord.decode_homomorphism :
    decode [] = .ok .empty ∧
      (∀ x y a, decode x = .ok a → decode (x ++ y) = (decode y).map fun b =>
        ⟨a.partitionKeyTable ++ b.partitionKeyTable,
          a.explicitHashKeyTable ++ b.explicitHashKeyTable, a.records ++ b.records⟩) ∧
      (∀ b, Foreign b ↔ decode b = .ok .empty) ∧
      (∀ x a, decode x = .ok a → AreFields x) ∧
      ∀ front inserted behind, AreFields front → Foreign inserted →
        (∀ message, decode (front ++ (inserted ++ behind)) = .ok message ↔
          decode (front ++ behind) = .ok message) ∧
        ∀ (v : Validator) (frame : Bytes),
          frame = v.checks.format.encode (front ++ (inserted ++ behind)) →
          (∀ limit, v.checks.maxFrameBytes = some limit → limit.toNat < frame.length →
            (v.validateBytes frame).1 = .error (.tooLarge frame.length limit.toNat)) ∧
          ((∀ limit, v.checks.maxFrameBytes = some limit → frame.length ≤ limit.toNat) →
            Checks.decoded (v.validateBytes frame).1 =
              Checks.decoded (v.validateBytes (v.checks.format.encode (front ++ behind))).1) := by
  refine ⟨decode_nil, fun _ _ _ => decode_append, fun _ => foreign_iff,
    fun _ _ => areFields_of_decode, fun front inserted behind hfront hinserted =>
      ⟨fun _ => decode_insert hfront hinserted, ?_⟩⟩
  rintro v _ rfl
  simp only [Validator.validateBytes_fst]
  exact ⟨fun _ hlimit hlong => Checks.examine_of_limit_lt hlimit hlong,
    Checks.decoded_examine_insert hfront hinserted⟩

/-- So a number that is not known makes no difference behind a record, in a frame
of just as many octets as are allowed with it. -/
theorem AggregatedRecord.decode_homomorphism_unknownNumber :
    ∃ payload message, decode payload = .ok message ∧
      decode (payload ++ encodeUInt64 4 5) = .ok message ∧
      (FrameFormat.standard.encode (payload ++ encodeUInt64 4 5)).length = 32 ∧
      Checks.decoded (Validator.validateBytes ⟨⟨.standard, some 32, true⟩, .zero, .empty⟩
          (FrameFormat.standard.encode (payload ++ encodeUInt64 4 5))).1 =
        .ok (message, some [⟨"a", none, [1]⟩]) := by
  obtain ⟨-, -, -, hwhole, hinsert⟩ := AggregatedRecord.decode_homomorphism
  have hlength : (encode ⟨#["a"], #[], #[⟨0, none, [1], #[]⟩]⟩).length = 10 := by cbv
  have hdecode : decode (encode ⟨#["a"], #[], #[⟨0, none, [1], #[]⟩]⟩) =
      .ok ⟨#["a"], #[], #[⟨0, none, [1], #[]⟩]⟩ := by
    refine decode_encode ?_
    rw [hlength]
    decide
  have hforeign : Foreign (encodeUInt64 4 5) := by
    refine ⟨[⟨4, .number 5⟩], fieldsAt_eq_ok_iff.2 ?_, by simp⟩
    have hnumber : Folds (collect depthLimit) [] (encodeUInt64 4 5 ++ []) [⟨4, .number 5⟩] :=
      Folds.field (takes_collect_number 5 [] (by decide) (by decide)) (Folds.nil _)
    rwa [List.append_nil] at hnumber
  obtain ⟨hmessage, hvalidate⟩ := hinsert _ _ [] (hwhole _ _ hdecode) hforeign
  rw [List.append_nil, List.append_nil] at hmessage hvalidate
  have hframe : (FrameFormat.standard.encode
      (encode ⟨#["a"], #[], #[⟨0, none, [1], #[]⟩]⟩ ++ encodeUInt64 4 5)).length = 32 := by
    have hnumber : (encodeUInt64 4 5).length = 2 := by cbv
    rw [FrameFormat.length_encode_eq, List.length_append, hlength, hnumber]
    rfl
  refine ⟨_, _, hdecode, (hmessage _).2 hdecode, hframe, ?_⟩
  rw [(hvalidate _ _ rfl).2, Validator.validateBytes_fst, Checks.result_examine_encode, hdecode]
  · rfl
  · rintro limit ⟨⟩
    rw [FrameFormat.length_encode_eq, hlength]
    decide
  · rintro limit ⟨⟩
    rw [hframe]
    decide

end AggregatedRecords
