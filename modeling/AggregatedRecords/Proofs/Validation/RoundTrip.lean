import AggregatedRecords.Proofs.Aggregator.RoundTrip
import AggregatedRecords.Proofs.Validation.Acceptance
/-!
# Validation — from producer to validator

A frame that an aggregator hands out, as text and with blanks around it, is
valid where the format is the same, and gives back the records that went into
it (`Validator.validate_run_take`): the aggregator holds what it accepted since
the last frame, its payload decodes to a message that resolves to that, and the
validator accepts every such payload.
-/

namespace AggregatedRecords

namespace Aggregator

variable {format : FrameFormat} {maxLength maxRecords : Nat}

/-- **A frame that is taken** after any calls is that of the message buffered,
which decodes and resolves to the records accepted since the last frame. -/
theorem take_run {calls : List Call} {outcomes : List Outcome} {a : Aggregator} {frame : Bytes}
    (hrun : (empty format maxLength maxRecords).run calls = (outcomes, a))
    (htake : a.take.1 = some frame) (hlength : frame.length < UInt64.size) :
    frame = format.encode a.message.encode ∧
      AggregatedRecord.decode a.message.encode = .ok a.message ∧
      a.message.deaggregate = .ok (waiting outcomes) := by
  obtain rfl : ((empty format maxLength maxRecords).run calls).1 = outcomes := by
    rw [hrun]
  obtain rfl : ((empty format maxLength maxRecords).run calls).2 = a := by
    rw [hrun]
  rw [run_empty] at htake ⊢
  -- nothing is handed out of an aggregator that holds nothing
  have hrecords : waiting ((empty format maxLength maxRecords).run calls).1 ≠ [] := by
    intro hnone
    rw [hnone, take_holding_nil] at htake
    cases htake
  rw [take_holding hrecords, Option.some.injEq] at htake
  subst htake
  rw [FrameFormat.length_encode] at hlength
  exact ⟨rfl, decode_holding (Nat.lt_of_le_of_lt (Nat.le_add_left _ _) hlength)⟩

end Aggregator

namespace Validator

variable {settings : Settings} {format : FrameFormat}

/-- **What went into an aggregator comes out of a validator.** Whatever was
pushed, turned away and taken before, a frame within the limit is valid as
text, blanks around it or not, and gives the records accepted since the frame
before it, in order, with the lengths of payload and frame. -/
theorem validate_run_take (hformat : settings.frameFormat = .ok format)
    (hdeaggregate : settings.deaggregate = true) (maxLength maxRecords : Nat)
    {calls : List Aggregator.Call} {outcomes : List Aggregator.Outcome} {a : Aggregator}
    (hrun : (Aggregator.empty format maxLength maxRecords).run calls = (outcomes, a))
    {frame : Bytes} (htake : a.take.1 = some frame)
    (hlimit : ∀ limit, settings.maxFrameBytes = some limit → frame.length ≤ limit.toNat)
    (hlength : frame.length < UInt64.size) {front behind : String}
    (hfront : ∀ c ∈ front.toList, Text.isBlank c = true)
    (hbehind : ∀ c ∈ behind.toList, Text.isBlank c = true) :
    ∃ start, ofSettings settings = .ok start ∧ ∀ v : Validator, v.checks = start.checks →
      (v.validate (front ++ Base64.encodeText frame ++ behind)).1 =
        .ok ⟨a.message, some (Aggregator.waiting outcomes), frame.length - format.overhead,
          frame.length⟩ := by
  refine ⟨_, ofSettings_of_frameFormat hformat, ?_⟩
  rintro ⟨checks, counts, times⟩ rfl
  obtain ⟨rfl, hdecode, hresolve⟩ := Aggregator.take_run hrun htake hlength
  have htext := Base64.decodeText_eq_ok_iff.1
    (Base64.decodeText_blanks (b := format.encode a.message.encode) hfront hbehind)
  rw [validate_fst, Checks.examineText_eq_ok_iff]
  refine ⟨a.message.encode, htext, hlimit, hdecode, ?_, ?_, rfl⟩
  · simp only [hdeaggregate, if_true]
    exact ⟨_, hresolve, rfl⟩
  · rw [FrameFormat.length_encode, Nat.add_sub_cancel_left]

/-- So it is of the second frame, after a record was turned away, with blanks
of several kinds around it and as long as is allowed. -/
theorem validate_run_take_secondFrame :
    ∃ start frame, ofSettings ⟨"0xF3899AC2", .md5, some 41, true⟩ = .ok start ∧
      ((Aggregator.empty .standard 45 2).run
        [.push ⟨"a", some "b", [1]⟩, .push ⟨"c", some "b", [2, 3, 4, 5]⟩, .take,
          .push ⟨"c", some "b", [2]⟩, .push ⟨"c", none, []⟩]).2.take.1 = some frame ∧
      frame.length = 41 ∧
      ∃ record, (start.validate ("\u3000\t" ++ Base64.encodeText frame ++ "\n")).1 =
        .ok ⟨record, some [⟨"c", some "b", [2]⟩, ⟨"c", none, []⟩], 21, 41⟩ := by
  have hformat : (Settings.mk "0xF3899AC2" .md5 (some 41) true).frameFormat = .ok .standard := by
    cbv
  have hlength : ((Aggregator.empty .standard 45 2).run
      [.push ⟨"a", some "b", [1]⟩, .push ⟨"c", some "b", [2, 3, 4, 5]⟩, .take,
        .push ⟨"c", some "b", [2]⟩, .push ⟨"c", none, []⟩]).2.take.1.map List.length =
      some 41 := by
    cbv
  obtain ⟨frame, htake, hframe⟩ := Option.map_eq_some_iff.1 hlength
  have hwaiting : Aggregator.waiting ((Aggregator.empty .standard 45 2).run
      [.push ⟨"a", some "b", [1]⟩, .push ⟨"c", some "b", [2, 3, 4, 5]⟩, .take,
        .push ⟨"c", some "b", [2]⟩, .push ⟨"c", none, []⟩]).1 =
      [⟨"c", some "b", [2]⟩, ⟨"c", none, []⟩] := by
    cbv
  have hlimit : ∀ limit : UInt64, some 41 = some limit → frame.length ≤ limit.toNat := by
    rintro limit ⟨⟩
    rw [hframe]
    decide
  have hshort : frame.length < UInt64.size := by
    rw [hframe]
    decide
  have hfront : "\u3000\t".toList.all Text.isBlank = true := by
    decide
  have hbehind : "\n".toList.all Text.isBlank = true := by
    decide
  obtain ⟨start, hstart, h⟩ := validate_run_take hformat rfl 45 2 rfl htake hlimit hshort
    (List.all_eq_true.1 hfront) (List.all_eq_true.1 hbehind)
  have hresult := h start rfl
  rw [hwaiting, hframe] at hresult
  exact ⟨start, frame, hstart, htake, hframe, _, hresult⟩

end Validator

end AggregatedRecords
