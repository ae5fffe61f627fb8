import AggregatedRecords.Proofs.Json.Settled
import AggregatedRecords.Proofs.Settings.Json
/-!
# Settings — the place of the magic

Settings that are read are the same for all magics that stand at one place of a text,
but for the magic itself (`Settings.exists_ofText_eq`): what is in front of the place
settles before the magic is read, and what is behind it goes its way whichever magic
was read. Only when settings are loaded is the magic looked at, and an unusable one
is what loading then fails of (`Settings.ofJson_eq`).
-/

namespace AggregatedRecords

open Json Json.Decoder
open Json.Document (Around Reading memberTokens moreMemberTokens memberTokensBefore)

variable {tokens : List Token} {x : Document}

/-! ## The fields in front -/

/-- Null is taken. -/
theorem takesToken_unit : TakesToken Token.unit fun
    | .null => some ()
    | _ => none where
  toOption_eq token := by
    have hreject : (token.reject .unit : Except Json.Error Unit).toOption = none :=
      toOption_reject token .unit
    cases token with
    | null => rfl
    | string s => cases s <;> exact hreject
    | _ => exact hreject
  isSingle {document a} h := by
    cases document with
    | null => exact ⟨.null, rfl⟩
    | _ => cases h

namespace DigestAlgorithm

/-- The name of an algorithm is taken. -/
theorem takesToken_ofToken : TakesToken ofToken fun
    | .string name => if name = md5.name then some md5 else none
    | _ => none where
  toOption_eq token := by
    cases token with
    | string s =>
      cases s with
      | none => rfl
      | some name =>
        unfold ofToken
        by_cases h : name = md5.name <;> simp [Token.name, ofToken?, h, Except.toOption]
    | _ => rfl
  isSingle {document a} h := by
    cases document with
    | string s => exact ⟨.string (some s), rfl⟩
    | _ => cases h

/-- An algorithm in an object settles on the members of any object. -/
theorem settled_inObject {members : List (String × Document)}
    (htokens : tokens.map Token.mended = memberTokens members ++ [.closeBrace]) :
    Settled (do
      let algorithm ← one ofToken
      punctuation .colon
      one Token.unit
      punctuation .closeBrace
      return algorithm) tokens := by
  cases members with
  | nil =>
    obtain ⟨brace, _, rfl, hbrace, -⟩ := List.map_eq_cons_iff.1 htokens
    obtain rfl := Token.eq_of_mended hbrace (by simp)
    exact settled_bind_of_error rfl
  | cons member members =>
    obtain ⟨name, value⟩ := member
    simp only [memberTokens, List.cons_append, List.append_assoc] at htokens
    obtain ⟨first, _, rfl, -, htokens⟩ := List.map_eq_cons_iff.1 htokens
    obtain ⟨mark, _, rfl, hmark, htokens⟩ := List.map_eq_cons_iff.1 htokens
    obtain ⟨values, behind, rfl, hvalues, hbehind⟩ := List.map_eq_append_iff.1 htokens
    obtain rfl := Token.eq_of_mended hmark (by simp)
    refine (settled_one ofToken first).bind fun algorithm => Settled.behind ?_ .colon
    refine (takesToken_unit.settled hvalues).bind fun _ => Settled.map ?_ fun _ => algorithm
    -- the object ends behind its first member, or a comma is at fault
    cases members with
    | nil =>
      obtain ⟨brace, _, rfl, -, hnil⟩ := List.map_eq_cons_iff.1 hbehind
      exact settled_punctuation fun _ => List.map_eq_nil_iff.1 hnil
    | cons member members =>
      obtain ⟨mark, _, rfl, hmark, -⟩ := List.map_eq_cons_iff.1 hbehind
      obtain rfl := Token.eq_of_mended hmark (by simp)
      exact settled_punctuation fun h => by cases h

/-- **The decoder of an algorithm settles on any document.** -/
theorem settled_decoder (hx : tokens.map Token.mended = x.tokens) : Settled decoder tokens := by
  have hne : tokens ≠ [] := by
    rintro rfl
    cases x <;> cases hx
  obtain ⟨token, more, rfl⟩ := List.exists_cons_of_ne_nil hne
  refine settled_peek ?_
  split
  · cases x with
    | object members =>
      rw [List.map_cons, Document.tokens, List.cons.injEq] at hx
      exact (settled_inObject hx.2).behind .openBrace
    | _ => cases hx
  · exact takesToken_ofToken.settled hx

end DigestAlgorithm

namespace Settings

/-- **The decoder of a member settles on any document.** -/
theorem settled_member (name : String) (given : Given) (hx : tokens.map Token.mended = x.tokens) :
    Settled (member name given) (.colon :: tokens) := by
  unfold member
  split
  · exact (settled_field (takesToken_text.settled hx) _ _).map _
  · exact (settled_field (DigestAlgorithm.settled_decoder hx) _ _).map _
  · exact (settled_field (takesToken_uint64.optional.settled hx) _ _).map _
  · exact (settled_field (takesToken_boolean.settled hx) _ _).map _
  · exact (settled_unknownField hx).map fun _ => given

/-! ## The fields behind -/

/-- The same fields with a magic given. -/
def Given.withMagic (given : Given) (magic : String) : Given := { given with magic := some magic }

/-- **Where a magic is given, no member depends on it.** -/
theorem run_member_withMagic (name : String) (given : Given) (magic : String)
    (tokens : List Token) :
    (member name (given.withMagic magic)).run tokens =
      ((member name (given.withMagic "")).run tokens).map fun p => (p.1.withMagic magic, p.2) := by
  unfold member
  split
  · rfl
  · simp only [Consumer.run_bind, Given.withMagic]
    cases (field "digest" given.digest.isSome DigestAlgorithm.decoder).run tokens <;> rfl
  · simp only [Consumer.run_bind, Given.withMagic]
    cases (field "max_frame_bytes" given.maxFrameBytes.isSome limitDecoder).run tokens <;> rfl
  · simp only [Consumer.run_bind, Given.withMagic]
    cases (field "deaggregate" given.deaggregate.isSome (one Token.boolean)).run tokens <;> rfl
  · simp only [Consumer.run_bind]
    cases unknownField.run tokens <;> rfl

/-! ## The place of the magic -/

/-- **Tokens lead to the magic** of an object, where its name has been read last, or of
an array, which begins with it. -/
def LeadsToMagic (front : List Token) : Prop :=
  (∃ members, front.map Token.mended = Reading.openTokens [.object members "magic"]) ∨
    front = [.openBracket]

/-- **A text has a magic** between tokens. -/
structure HasMagic (front back : List Token) (magic text : String) : Prop where
  leads : LeadsToMagic front
  tokens_eq : Token.ofText text = front ++ .string (some magic) :: back

variable {front back : List Token} {magic text : String}

/-- A text of an object has the magic that any of its members gives. -/
theorem hasMagic_of_ofText? {before after : List (String × Document)}
    (h : Document.ofText? text =
      some (.object (before ++ ("magic", .string magic) :: after))) :
    HasMagic (.openBrace :: (memberTokensBefore before ++ [.string (some "magic"), .colon]))
      (moreMemberTokens after ++ [.closeBrace]) magic text := by
  have hmembers : memberTokens (before ++ ("magic", .string magic) :: after) =
      memberTokensBefore before ++
        .string (some "magic") :: .colon :: .string (some magic) :: moreMemberTokens after := by
    cases before <;> simp [memberTokens, memberTokensBefore, moreMemberTokens,
      Document.moreMemberTokens_append, Document.tokens]
  have htokens := map_mended_tokens (.object (before ++ ("magic", .string magic) :: after))
  have htext := Document.ofTokens?_eq_some_iff.1 h
  simp only [Document.tokens, hmembers, List.map_cons, List.map_append,
    List.append_assoc] at htokens
  refine ⟨.inl ⟨before, ?_⟩, ?_⟩
  · have hbefore := (List.append_inj (List.cons.inj htokens).2 (List.length_map _)).1
    simp [Reading.openTokens, hbefore, Token.mended]
  · simpa [Document.tokens, hmembers] using htext

/-- Members are at fault or not, whatever the magic among them. -/
theorem exists_runMembers_eq {members : List (String × Document)}
    (hfront : front.map Token.mended =
      memberTokensBefore members ++ [.string (some "magic"), .colon]) (back : List Token) :
    ∃ result : Except Json.Error (Given × List Token), ∀ magic,
      runMembers member true .nothing (front ++ .string (some magic) :: back) =
        result.map fun p => (p.1.withMagic magic, p.2) := by
  have hbefore : memberTokensBefore members =
      memberTokens members ++ if members.isEmpty then [] else [.comma] := by
    cases members <;> rfl
  rw [hbefore, List.append_assoc] at hfront
  obtain ⟨before, place, rfl, hmembers, hplace⟩ := List.map_eq_append_iff.1 hfront
  obtain rfl := Token.eq_of_map_mended hplace (by cases members <;> simp)
  obtain ⟨result, hresult⟩ :=
    exists_runMembers_append (fun name given _ _ => settled_member name given) members true
      Given.nothing hmembers
  cases result with
  | error e =>
    refine ⟨.error e, fun magic => ?_⟩
    rw [List.append_assoc]
    exact hresult _
  | ok given =>
    have hplaced (magic) : runMembers member true .nothing
        (before ++ ((if members.isEmpty then [] else [.comma]) ++
          [.string (some "magic"), .colon]) ++ .string (some magic) :: back) =
        runMembers member members.isEmpty given ((if members.isEmpty then [] else [.comma]) ++
          .string (some "magic") :: .colon :: .string (some magic) :: back) := by
      rw [List.append_assoc, hresult, List.append_assoc]
      rfl
    have hname : Token.string (some "magic") ≠ .closeBrace := by simp
    obtain ⟨magic?, digest, limit, deaggregate⟩ := given
    cases magic? with
    | some first =>
      refine ⟨.error (.mismatch (.duplicateField "magic")), fun magic => ?_⟩
      rw [hplaced, runMembers_cons _ _ hname]
      rfl
    | none =>
      refine ⟨runMembers (fun name given => member name (given.withMagic "")) false
        ⟨none, digest, limit, deaggregate⟩ back, fun magic => ?_⟩
      rw [hplaced, runMembers_cons _ _ hname]
      exact runMembers_map (fun name given => run_member_withMagic name given magic) false
        ⟨none, digest, limit, deaggregate⟩ back

/-- Takes the fields in order, through the end of the array. -/
def closedFields : Decoder Given := do
  let given ← fields
  punctuation .closeBracket
  return given

/-- The fields behind a magic that is the first do not depend on it. -/
theorem run_closedFields (back : List Token) (magic : String) :
    closedFields.run (.string (some magic) :: back) =
      (closedFields.run (.string (some "") :: back)).map fun p =>
        (p.1.withMagic magic, p.2) := by
  have hitem (magic : String) : (item? true (one Token.text)).run (.string (some magic) :: back) =
      .ok (some magic, back) := rfl
  unfold closedFields fields
  simp only [Consumer.bind_bind, Consumer.run_bind, hitem]
  -- each field fails for both magics, or is taken for both
  obtain e | ⟨digest, back⟩ := (item? false DigestAlgorithm.decoder).run back
  · rfl
  dsimp only
  obtain e | ⟨limit, back⟩ := (item? false limitDecoder).run back
  · rfl
  dsimp only
  obtain e | ⟨deaggregate, back⟩ := (item? false (one Token.boolean)).run back
  · rfl
  dsimp only [Consumer.run_pure]
  cases (punctuation .closeBracket).run back <;> rfl

/-- **Settings are read for all magics** at a place, or for none. -/
theorem exists_run_decoder (hfront : LeadsToMagic front) (back : List Token) :
    ∃ result : Except Json.Error (Given × List Token), ∀ magic,
      decoder.run (front ++ .string (some magic) :: back) =
        result.map fun p => ((p.1.withMagic magic).complete, p.2) := by
  obtain ⟨members, hmembers⟩ | rfl := hfront
  · obtain ⟨brace, front, rfl, hbrace, hfront⟩ := List.map_eq_cons_iff.1 hmembers
    obtain rfl := Token.eq_of_mended hbrace (by simp)
    obtain ⟨result, hresult⟩ := exists_runMembers_eq hfront back
    refine ⟨result, fun magic => ?_⟩
    have hrecord : (record "ValidateConfig" (Decoder.members member .nothing) fields).run
        (.openBrace :: front ++ .string (some magic) :: back) =
        runMembers member true .nothing (front ++ .string (some magic) :: back) := rfl
    rw [decoder, Consumer.run_map, hrecord, hresult]
    cases result <;> rfl
  · refine ⟨closedFields.run (.string (some "") :: back), fun magic => ?_⟩
    have hrecord : (record "ValidateConfig" (Decoder.members member .nothing) fields).run
        ([.openBracket] ++ .string (some magic) :: back) =
        closedFields.run (.string (some magic) :: back) := rfl
    rw [decoder, Consumer.run_map, hrecord, run_closedFields back magic]
    cases closedFields.run (.string (some "") :: back) <;> rfl

/-- **Texts with a magic at one place** give the same settings but for the magic, or fail
in the same way. -/
theorem exists_ofText_eq (front back : List Token) :
    ∃ result : Except Json.Error Settings, ∀ magic text, HasMagic front back magic text →
      Decoder.ofText decoder text = result.map fun settings => { settings with magic } := by
  by_cases hfront : LeadsToMagic front
  · obtain ⟨result, hresult⟩ := exists_run_decoder hfront back
    refine ⟨match result with
      | .error e => .error e
      | .ok (given, []) => .ok given.complete
      | .ok (_, _ :: _) => .error (.fault .syntactic), fun magic text h => ?_⟩
    rw [Decoder.ofText, h.tokens_eq, hresult]
    match result with
    | .error e => rfl
    | .ok (given, []) => rfl
    | .ok (_, _ :: _) => rfl
  · exact ⟨.ok default, fun _ _ h => absurd h.leads hfront⟩

/-! ## Loading -/

/-- What is wrong with a magic. -/
def magicFault? (magic : String) : Option Misconfiguration :=
  match Hex.ofText magic with
  | .error cause => some (.badMagic magic cause)
  | .ok octets => if octets.isEmpty then some .emptyMagic else none

/-- Settings that are loaded are read first, and then their magic is looked at. -/
theorem ofJson_eq (text : String) (wording : Wording) : ofJson text wording =
    match Decoder.ofText decoder text with
    | .error e => .error (.json (e.failure wording text))
    | .ok settings =>
      match magicFault? settings.magic with
      | some fault => .error (.config fault)
      | none => .ok settings := by
  unfold ofJson
  cases Decoder.ofText decoder text with
  | error e => rfl
  | ok settings =>
    unfold frameFormat magicFault?
    dsimp only
    cases hmagic : Hex.ofText settings.magic with
    | error cause => rfl
    | ok octets => cases hempty : octets.isEmpty <;> simp [hempty]

end Settings

end AggregatedRecords
