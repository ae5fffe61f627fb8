import AggregatedRecords.Proofs.Aggregator.Batches
import AggregatedRecords.Proofs.Aggregator.Length
import AggregatedRecords.Proofs.Deaggregation
import AggregatedRecords.Proofs.Frame
import AggregatedRecords.Proofs.Record.RoundTrip
/-!
# Aggregator — records come out as they went in

The entry of a record stands for it in the message it was put into
(`Aggregator.standsFor_entry`), and goes on standing for it when more records
follow (`Aggregator.standsFor_insert`). So the message of an aggregator resolves
to the records it holds (`Aggregator.deaggregate_holding`).

So do the frames of a whole list, which resolve to its batches, and these one
after the other are the list (`aggregateAll_resolves`).
-/

namespace AggregatedRecords

namespace Aggregator

variable {a : Aggregator} {r : UserRecord} {added : Nat}
variable {format : FrameFormat} {maxLength maxRecords : Nat} {records : List UserRecord}

/-! ## What the entries stand for -/

/-- **An entry stands for its record** in the message that it is put into. -/
theorem standsFor_entry (h : (a.insert r added).Indexable) :
    (a.insert r added).message.StandsFor (a.entry r) r where
  partitionKey := by
    rw [toNat_partitionKeyIndex h]
    exact KeyTable.getElem?_intern _ _
  explicitHashKey := by
    have hindex := map_toNat_explicitHashKeyIndex h
    rw [← Function.comp_def (fun index : Nat => _) UInt64.toNat, ← Option.map_map, hindex]
    simp only [message, explicitHashKeys_insert]
    cases r.explicitHashKey with
    | none => rfl
    | some key =>
      simp only [Option.map_some, Option.elim_some]
      rw [KeyTable.getElem?_intern]
  data := rfl

/-- **What stood for a record still does** when another one is taken in. -/
theorem standsFor_insert (r : UserRecord) (added : Nat) {record : Record} {user : UserRecord}
    (h : a.message.StandsFor record user) :
    (a.insert r added).message.StandsFor record user where
  partitionKey := KeyTable.getElem?_intern_of_eq_some h.partitionKey
  explicitHashKey := by
    have hold := h.explicitHashKey
    simp only [message, explicitHashKeys_insert] at hold ⊢
    cases hindex : record.explicitHashKeyIndex with
    | none => rwa [hindex] at hold
    | some index =>
      rw [hindex] at hold
      cases huser : user.explicitHashKey with
      | none => simp [huser] at hold
      | some key =>
        simp only [huser, Option.map_some, Option.some.injEq] at hold ⊢
        cases r.explicitHashKey with
        | none => exact hold
        | some _ => exact KeyTable.getElem?_intern_of_eq_some hold
  data := h.data

theorem toList_message_insert (a : Aggregator) (r : UserRecord) (added : Nat) :
    (a.insert r added).message.records.toList = a.message.records.toList ++ [a.entry r] := by
  simp only [message, records_insert, Array.toList_push]

/-- **The message of an aggregator resolves to the records it holds.** -/
theorem deaggregate_holding (h : (holding format maxLength maxRecords records).Indexable) :
    (holding format maxLength maxRecords records).message.deaggregate = .ok records := by
  rw [AggregatedRecord.deaggregate_eq_ok_iff]
  induction records using List.reverseRecOn with
  | nil => exact List.Forall₂.nil
  | append_singleton records r ih =>
    rw [holding_concat] at h ⊢
    -- what stood for the earlier records still does, and the new entry stands for the last
    have hbefore := (ih h.of_insert).imp fun _ _ hrecord =>
      standsFor_insert r ((holding format maxLength maxRecords records).cost r) hrecord
    have hlast := List.Forall₂.cons (standsFor_entry h) List.Forall₂.nil
    rw [toList_message_insert]
    exact List.rel_append hbefore hlast

/-- **What is buffered can be read back**: its payload decodes to the message,
which resolves to the records held. -/
theorem decode_holding
    (h : (holding format maxLength maxRecords records).message.encode.length < UInt64.size) :
    AggregatedRecord.decode (holding format maxLength maxRecords records).message.encode =
        .ok (holding format maxLength maxRecords records).message ∧
      (holding format maxLength maxRecords records).message.deaggregate = .ok records :=
  ⟨AggregatedRecord.decode_encode h, deaggregate_holding (indexable_of_length h)⟩

/-- A message holds as many records as were taken in. -/
theorem size_message_holding :
    (holding format maxLength maxRecords records).message.records.size = records.length :=
  size_holding

end Aggregator

/-! ## Whole lists -/

/-- **Aggregating loses, doubles and moves nothing.** Every frame of a list is
opened, its payload is a message with at least one record, and the records that
the messages resolve to, one frame after the other, are the list. -/
theorem aggregateAll_resolves (records : List UserRecord) (maxLength maxRecords : Nat)
    (h : ∀ frame ∈ aggregateAll records maxLength maxRecords, frame.length < UInt64.size) :
    ∃ parts : List (List UserRecord),
      List.Forall₂
        (fun frame part =>
          ∃ payload message, FrameFormat.standardPayloadOf frame = .ok payload ∧
            AggregatedRecord.decode payload = .ok message ∧
            0 < message.records.size ∧ message.deaggregate = .ok part)
        (aggregateAll records maxLength maxRecords) parts ∧
      parts.flatten = records := by
  rw [aggregateAll_eq_map_batches] at h ⊢
  refine ⟨Aggregator.batches .standard maxLength maxRecords [] records, ?_,
    Aggregator.flatten_batches [] records⟩
  rw [List.forall₂_map_left_iff, List.forall₂_same]
  intro part hpart
  have hframe := h _ (List.mem_map_of_mem hpart)
  rw [Aggregator.frameOf, FrameFormat.length_encode] at hframe
  have hpayload : (Aggregator.holding .standard maxLength maxRecords part).message.encode.length <
      UInt64.size := by
    omega
  obtain ⟨hdecode, hresolve⟩ := Aggregator.decode_holding hpayload
  refine ⟨_, _, ?_, hdecode, ?_, hresolve⟩
  · rw [Aggregator.frameOf, FrameFormat.standardPayloadOf, FrameFormat.parse_encode]
    rfl
  · rw [Aggregator.size_message_holding]
    exact List.length_pos_of_ne_nil (Aggregator.ne_nil_of_mem_batches hpart)

/-- So it is with two frames: the second record does not fit with the first,
whose hash key it has, and the third comes under its partition key. -/
theorem aggregateAll_resolves_twoFrames :
    ∃ frames, aggregateAll [⟨"a", some "b", [1]⟩, ⟨"c", some "b", [2]⟩, ⟨"c", none, []⟩] 45 2 =
        frames ∧
      frames.map List.length = [35, 41] ∧
      ∃ parts : List (List UserRecord), parts.length = 2 ∧
        parts.flatten = [⟨"a", some "b", [1]⟩, ⟨"c", some "b", [2]⟩, ⟨"c", none, []⟩] := by
  have hlengths : (aggregateAll [⟨"a", some "b", [1]⟩, ⟨"c", some "b", [2]⟩, ⟨"c", none, []⟩]
      45 2).map List.length = [35, 41] := by
    cbv
  have hshort : ∀ frame ∈
      aggregateAll [⟨"a", some "b", [1]⟩, ⟨"c", some "b", [2]⟩, ⟨"c", none, []⟩] 45 2,
      frame.length < UInt64.size := by
    intro frame hframe
    have hmem := List.mem_map_of_mem (f := List.length) hframe
    rw [hlengths] at hmem
    rcases List.mem_pair.1 hmem with h | h <;> rw [h] <;> decide
  obtain ⟨parts, hparts, hflatten⟩ := aggregateAll_resolves _ 45 2 hshort
  have hsame := hparts.length_eq
  rw [← List.length_map List.length, hlengths] at hsame
  exact ⟨_, rfl, hlengths, parts, hsame.symm, hflatten⟩

end AggregatedRecords
