import AggregatedRecords.Proofs.Validation.Conditions
import AggregatedRecords.Proofs.Validation.EntryPoints
/-!
# Validation — the first condition that fails

Each condition can be looked at by itself, whatever else is wrong with the input
(`Checks.fault?`, `Validator.Call.fault?`), and every call is an attempt that
follows the conditions of its input (`Validator.exists_follows_call`). So the
first condition that fails decides the outcome, and the stages that are started
are those of the conditions up to it (`Validator.call_failFast`).
-/

namespace AggregatedRecords

/-! ## The conditions of octets -/

/-- A frame is opened to the octets as they are cut. -/
theorem FrameFormat.eq_split_of_parse {format : FrameFormat} {raw : Bytes} {view : FrameView}
    (h : format.parse raw = .ok view) : view = format.split raw := by
  obtain ⟨rfl, hview⟩ := (FrameFormat.parse_eq_ok_iff format).1 h
  rwa [FrameFormat.split_encode]

namespace Checks

open Attempt Condition

/-- What is wrong with octets by a condition, whatever the other ones are. A
condition that is not about octets has nothing against them, and there is
nothing against the keys of a payload that is no message. -/
def fault? (checks : Checks) (raw : Bytes) : Condition → Option ValidationError
  | .size => checks.maxFrameBytes.bind fun limit =>
    if raw.length ≤ limit.toNat then none else some (.tooLarge raw.length limit.toNat)
  | .length =>
    if checks.format.overhead ≤ raw.length then none
    else some (.frame (.malformed raw.length checks.format.overhead))
  | .magic =>
    let view := checks.format.split raw
    if view.magic = checks.format.magic then none
    else some (.frame (.badMagic checks.format.magic view.magic))
  | .digest =>
    let view := checks.format.split raw
    let digest := checks.format.algorithm.digest view.payload
    if digest = view.digest then none else some (.frame (.checksumMismatch ⟨digest, view.digest⟩))
  | .payload =>
    errorOf? ((AggregatedRecord.decode (checks.format.split raw).payload).mapError .undecodable)
  | .keys =>
    (AggregatedRecord.decode (checks.format.split raw).payload).toOption.bind fun record =>
      errorOf? (record.deaggregate.mapError .inconsistent)
  | .encoding => none
  | .rendering => none

/-- The conditions that octets are held to, in order. -/
def conditions (checks : Checks) : List Condition :=
  [.size, .length, .magic, .digest, .payload] ++ if checks.deaggregate then [.keys] else []

variable (checks : Checks) (raw : Bytes)

theorem follows_requireLength :
    (checks.requireLength raw.length).Follows (checks.fault? raw) [.size] := by
  rw [requireLength]
  cases hlimit : checks.maxFrameBytes with
  | none =>
    refine follows_unstaged rfl rfl ?_
    rw [fault?, hlimit]
    rfl
  | some limit =>
    refine follows_unstaged rfl rfl ?_
    by_cases hlength : raw.length ≤ limit.toNat
    · simp [fault?, hlimit, hlength, require, errorOf?]
    · simp [fault?, hlimit, hlength, require, errorOf?]

/-- A frame is opened if its length, its magic and its digest are right. -/
theorem follows_parse :
    (Attempt.stage .frame ((checks.format.parse raw).mapError .frame)).Follows (checks.fault? raw)
      [.length, .magic, .digest] := by
  refine follows_stage (by decide) fun e => ?_
  simp only [reached_cons, not_reached_nil, and_false, or_false, or_and_right, exists_or,
    exists_eq_left, and_assoc, exists_and_left]
  rw [FrameFormat.parse]
  by_cases hlength : raw.length < checks.format.overhead
  · simp [fault?, hlength, Except.mapError]
  · by_cases hmagic : (checks.format.split raw).magic = checks.format.magic
    · by_cases hdigest : checks.format.algorithm.digest (checks.format.split raw).payload =
          (checks.format.split raw).digest
      · simp [fault?, hlength, hmagic, hdigest, DigestAlgorithm.verify, Except.mapError]
      · simp [fault?, hlength, hmagic, hdigest, DigestAlgorithm.verify, Except.mapError]
    · simp [fault?, hlength, hmagic, Except.mapError]

/-- The keys of a payload that is a message are looked at if user records are
wanted. -/
theorem follows_resolve {record : AggregatedRecord}
    (hrecord : AggregatedRecord.decode (checks.format.split raw).payload = .ok record) :
    (checks.resolve record).Follows (checks.fault? raw)
      (if checks.deaggregate then [.keys] else []) := by
  rw [resolve]
  cases checks.deaggregate with
  | false => exact follows_pure none
  | true =>
    refine Follows.map (follows_stage_singleton rfl ?_) some
    rw [fault?, hrecord]
    rfl

/-- **Octets are examined by their conditions.** -/
theorem follows_examine : (checks.examine raw).Follows (checks.fault? raw) checks.conditions := by
  refine (checks.follows_requireLength raw).bind fun _ _ => ?_
  refine (checks.follows_parse raw).bind fun view hview => ?_
  -- what is opened is the octets as they are cut, whichever condition looks at them
  obtain rfl := FrameFormat.eq_split_of_parse (stage_eq_ok_iff.1 hview)
  refine (follows_note _).bind fun _ _ => ?_
  refine (follows_stage_singleton (k := .payload) rfl rfl).bind fun record hrecord => ?_
  refine (follows_note _).bind fun _ _ => ?_
  exact (checks.follows_resolve raw (stage_eq_ok_iff.1 hrecord)).map _

/-- What octets validate to if they meet all conditions. -/
def validated? (checks : Checks) (raw : Bytes) : Option Validated :=
  let payload := (checks.format.split raw).payload
  (AggregatedRecord.decode payload).toOption.bind fun record =>
    if checks.deaggregate then
      record.deaggregate.toOption.map fun users => ⟨record, some users, payload.length, raw.length⟩
    else some ⟨record, none, payload.length, raw.length⟩

theorem validated?_of_examine {validated : Validated}
    (h : (checks.examine raw).result = .ok validated) : checks.validated? raw = some validated := by
  obtain ⟨payload, rfl, haccepts⟩ := examine_eq_ok_iff.1 h
  obtain ⟨record, userRecords, payloadLength, frameLength⟩ := validated
  obtain ⟨-, hrecord, husers, rfl, rfl⟩ := haccepts
  simp only at hrecord husers
  rw [validated?, FrameFormat.split_encode, hrecord]
  cases hdeaggregate : checks.deaggregate with
  | false =>
    rw [hdeaggregate] at husers
    obtain rfl := husers
    rfl
  | true =>
    rw [hdeaggregate] at husers
    obtain ⟨users, hresolve, rfl⟩ := husers
    simp only [Except.toOption, Option.bind_some, hresolve]
    rfl

end Checks

/-! ## The conditions of calls -/

namespace Validator

open Attempt Condition

namespace Call

/-- What the renderer of a call objects to. -/
def objection? (checks : Checks) : Call → Option ValidationError
  | validateAndRender text render =>
    (Base64.decodeText text).toOption.bind fun raw =>
      (checks.validated? raw).bind fun validated => errorOf? (render validated)
  | _ => none

/-- **What is wrong with the input of a call** by a condition, whatever the
other ones are. -/
def fault? (checks : Checks) (c : Call) : Condition → Option ValidationError
  | .encoding => c.text?.bind fun text =>
    errorOf? ((Base64.decodeText text).mapError .invalidEncoding)
  | .rendering => c.objection? checks
  | k => c.octets?.bind fun raw => checks.fault? raw k

/-- **The conditions that the input of a call is held to**, in order. -/
def conditions (checks : Checks) : Call → List Condition
  | validate _ => .encoding :: checks.conditions
  | validateBytes _ => checks.conditions
  | validateAndRender _ _ => .encoding :: checks.conditions ++ [.rendering]

/-- A condition that the input of a call is held to once all before it hold. -/
def Reaches (checks : Checks) (c : Call) : Condition → Prop :=
  Reached (c.fault? checks) (c.conditions checks)

theorem fault?_of_octets? {checks : Checks} {c : Call} {raw : Bytes} (h : c.octets? = some raw)
    {k : Condition} (hk : k ∈ checks.conditions) : c.fault? checks k = checks.fault? raw k := by
  have hraw : (c.octets?.bind fun raw => checks.fault? raw k) = checks.fault? raw k := by
    rw [h, Option.bind_some]
  cases k with
  | encoding => simp [Checks.conditions] at hk
  | rendering => simp [Checks.conditions] at hk
  | _ => exact hraw

end Call

section Text

variable {α : Type} {checks : Checks} {c : Call} {text : String}

/-- A text is examined by the condition on texts, and then as octets are. -/
theorem follows_examineText (htext : c.text? = some text)
    (hoctets : c.octets? = (Base64.decodeText text).toOption) :
    (checks.examineText text).Follows (c.fault? checks) (.encoding :: checks.conditions) := by
  refine (follows_stage_singleton (k := .encoding) rfl ?_).bind fun raw hraw => ?_
  · rw [Call.fault?, htext, Option.bind_some]
  · refine (checks.follows_examine raw).congr fun k hk => Call.fault?_of_octets? ?_ hk
    rw [hoctets, stage_eq_ok_iff.1 hraw]
    rfl

/-- What is rendered is what the octets of the text validate to. -/
theorem follows_examineAndRender (render : Validated → Except ValidationError α) :
    (checks.examineAndRender text render).Follows
      ((Call.validateAndRender text render).fault? checks)
      (.encoding :: checks.conditions ++ [.rendering]) := by
  have htext : (checks.examineText text).Follows
      ((Call.validateAndRender text render).fault? checks) (.encoding :: checks.conditions) :=
    follows_examineText rfl rfl
  refine htext.bind fun validated hvalidated => ?_
  obtain ⟨raw, hraw, hexamine⟩ := bind_eq_ok_iff.1 hvalidated
  refine Follows.map (follows_stage_singleton rfl ?_) _
  rw [Call.fault?, Call.objection?, stage_eq_ok_iff.1 hraw]
  simp only [Except.toOption, Option.bind_some, Checks.validated?_of_examine checks raw hexamine]

end Text

/-- **A call is an attempt that follows the conditions of its input**, and is
accounted for as that. -/
theorem exists_follows_call (v : Validator) (c : Call) :
    ∃ (α : Type) (attempt : Attempt α) (validated : α → Validated),
      attempt.Follows (c.fault? v.checks) (c.conditions v.checks) ∧
      (∀ e, (v.call c).1 = .error e ↔ attempt.result = .error e) ∧
      (v.call c).2 = v.account attempt validated := by
  cases c with
  | validate text =>
    refine ⟨Validated, v.checks.examineText text, id, follows_examineText rfl rfl, fun e => ?_, ?_⟩
    · rw [call, validate]
    · rw [call, validate]
  | validateBytes raw =>
    refine ⟨Validated, v.checks.examine raw, id, ?_, fun e => ?_, ?_⟩
    · exact (v.checks.follows_examine raw).congr fun k hk => Call.fault?_of_octets? rfl hk
    · rw [call, validateBytes]
    · rw [call, validateBytes]
  | @validateAndRender α text render =>
    refine ⟨Validated × α, v.checks.examineAndRender text render, Prod.fst,
      follows_examineAndRender render, fun e => ?_, ?_⟩
    · rw [call, validateAndRender]
      cases (v.checks.examineAndRender text render).result <;> simp [Except.map]
    · rw [call, validateAndRender]

end Validator

/-! ## Results and stages -/

namespace StageTimes

/-- A stage has an entry once it is started, and keeps the one that it has. -/
theorem isSome_timeOf?_start (times : StageTimes) (started stage : Stage) :
    ((times.start started).timeOf? stage).isSome ↔
      stage = started ∨ (times.timeOf? stage).isSome := by
  rw [start, timeOf?_set]
  split
  · simp [*]
  · simp [*]

theorem isSome_timeOf?_foldl (stages : List Stage) (times : StageTimes) (stage : Stage) :
    ((stages.foldl start times).timeOf? stage).isSome ↔
      (times.timeOf? stage).isSome ∨ stage ∈ stages := by
  induction stages generalizing times with
  | nil => simp
  | cons started stages ih =>
    rw [List.foldl_cons, ih, isSome_timeOf?_start, List.mem_cons, or_comm (a := stage = started),
      or_assoc]

end StageTimes

namespace Validator

/-- **The first condition that fails decides.** A call fails exactly with what is
wrong by the condition that is reached and fails, whatever else is wrong with
its input, and succeeds if all of its conditions hold. The stages that have an
entry are those that had one before, and those of the conditions that were
reached: of the one that fails, but of none behind it. -/
theorem call_failFast (v : Validator) (c : Call) :
    (∀ e, (v.call c).1 = .error e ↔
      ∃ k, c.Reaches v.checks k ∧ c.fault? v.checks k = some e) ∧
    ((∃ output, (v.call c).1 = .ok output) ↔
      ∀ k ∈ c.conditions v.checks, c.fault? v.checks k = none) ∧
    ∀ stage, ((v.call c).2.times.timeOf? stage).isSome ↔
      (v.times.timeOf? stage).isSome ∨ ∃ k, c.Reaches v.checks k ∧ k.stage? = some stage := by
  obtain ⟨α, attempt, validated, hfollows, hresult, haccount⟩ := exists_follows_call v c
  refine ⟨fun e => ?_, ?_, fun stage => ?_⟩
  · rw [hresult, hfollows.fails_iff]
    rfl
  · rw [← hfollows.exists_ok_iff, exists_eq_ok_iff, exists_eq_ok_iff]
    exact forall_congr' fun e => not_congr (hresult e)
  · rw [haccount, account, StageTimes.isSome_timeOf?_foldl, hfollows.starts_iff]
    rfl

end Validator

end AggregatedRecords
