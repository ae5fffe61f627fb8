import AggregatedRecords.Proofs.Json.Values
/-!
# JSON — what does not depend on what follows

A decoder reports the first problem in reading order, so what stands behind the
tokens of a value can make no difference to whether and how the value fails. A
decoder settles on tokens if that is so (`Decoder.Settled`). Decoders of single
tokens, values that are passed over and fields all settle on the tokens of a document,
torn or not. So the members in front of a place in an object are either at fault
themselves, or are taken whatever stands at that place
(`Decoder.exists_runMembers_append`). And members behind it that only carry along
what was taken there do the same whatever that is (`Decoder.runMembers_map`).
-/

namespace AggregatedRecords

namespace Json

namespace Token

/-- A token that is not as if it were empty is not mended. -/
theorem eq_of_mended {token expected : Token} (h : token.mended = expected)
    (hexpected : expected ≠ .string (some "")) : token = expected := by
  cases token with
  | string s =>
    cases s with
    | none => exact absurd h.symm hexpected
    | some s => exact h
  | _ => exact h

theorem eq_of_map_mended {tokens expected : List Token} (h : tokens.map mended = expected)
    (hexpected : .string (some "") ∉ expected) : tokens = expected := by
  have hsame : ∀ token ∈ tokens, id token = token.mended := fun token htoken =>
    eq_of_mended rfl fun hempty => hexpected (h ▸ List.mem_map.2 ⟨token, htoken, hempty⟩)
  rw [← h, ← List.map_congr_left hsame, List.map_id]

end Token

namespace Decoder

open Document

variable {α β : Type} {d : Decoder α} {value : Token → Except Error α}
  {read : Document → Option α} {tokens more : List Token}

/-- **A decoder settles on tokens**: what it gives is the same whatever follows them,
and if it gives a value, it has taken just these. -/
def Settled (d : Decoder α) (tokens : List Token) : Prop :=
  ∃ result : Except Error α, ∀ rest, d.run (tokens ++ rest) = result.map (·, rest)

theorem settled_one (value : Token → Except Error α) (token : Token) :
    Settled (one value) [token] :=
  ⟨value token, fun _ => rfl⟩

/-- A decoder that fails at its first token settles on any tokens. -/
theorem settled_of_error {token : Token} {e : Error} (h : value token = .error e) :
    Settled (one value) (token :: more) := by
  refine ⟨.error e, fun rest => ?_⟩
  simp [one, h, Except.map]

/-- Nothing more is done then. -/
theorem settled_bind_of_error {next : α → Decoder β} {token : Token} {e : Error}
    (h : value token = .error e) : Settled (one value >>= next) (token :: more) := by
  refine ⟨.error e, fun rest => ?_⟩
  simp [Consumer.run_bind, one, h, Except.map]

/-- A token that can only be a given one is at fault, or is the only one. -/
theorem settled_punctuation {expected token : Token} (h : token = expected → more = []) :
    Settled (punctuation expected) (token :: more) := by
  by_cases htoken : token = expected
  · rw [h htoken]
    exact settled_one _ token
  · exact settled_of_error (if_neg htoken)

/-- What is done may depend on the first token. -/
theorem settled_peek {next : Token → Decoder α} {token : Token}
    (h : Settled (next token) (token :: more)) : Settled (peek >>= next) (token :: more) :=
  h

theorem settled_fail (e : Error) (tokens : List Token) :
    Settled (Consumer.fail e : Decoder α) tokens :=
  ⟨.error e, fun _ => rfl⟩

namespace Settled

/-- **Decoders in sequence settle on tokens in sequence.** -/
theorem bind {next : α → Decoder β} (h : Settled d tokens)
    (hnext : ∀ a, Settled (next a) more) : Settled (d >>= next) (tokens ++ more) := by
  obtain ⟨result, hresult⟩ := h
  cases result with
  | error e =>
    refine ⟨.error e, fun rest => ?_⟩
    rw [List.append_assoc, Consumer.run_bind, hresult]
    rfl
  | ok a =>
    obtain ⟨result', hresult'⟩ := hnext a
    refine ⟨result', fun rest => ?_⟩
    rw [List.append_assoc, Consumer.run_bind_of_ok (hresult (more ++ rest)), hresult']

theorem map (h : Settled d tokens) (f : α → β) : Settled (f <$> d) tokens := by
  obtain ⟨result, hresult⟩ := h
  refine ⟨result.map f, fun rest => ?_⟩
  rw [Consumer.run_map, hresult]
  cases result <;> rfl

/-- A given token may stand in front. -/
theorem behind (h : Settled d tokens) (token : Token) :
    Settled (do punctuation token; d) (token :: tokens) :=
  (settled_one _ token).bind fun _ => h

end Settled

/-! ## Values -/

/-- A document that begins with a single token is that token. -/
theorem eq_of_tokens_eq_cons {document single : Document} {token : Token}
    (h : document.tokens = token :: more) (htoken : ofToken? token = some single) :
    document = single := by
  cases document <;> simp only [Document.tokens, List.cons.injEq] at h <;> obtain ⟨rfl, -⟩ := h <;>
    cases htoken <;> rfl

/-- **A decoder of a single token settles on any document.** -/
theorem TakesToken.settled (h : TakesToken value read) {x : Document}
    (hx : tokens.map Token.mended = x.tokens) : Settled (one value) tokens := by
  cases tokens with
  | nil => cases x <;> cases hx
  | cons token more =>
    cases hvalue : value token with
    | error e => exact settled_of_error hvalue
    | ok a =>
      have hread := h.toOption_eq token
      rw [hvalue, Except.toOption, eq_comm, Option.bind_eq_some_iff] at hread
      obtain ⟨single, hsingle, -⟩ := hread
      -- the token is not torn, and it is the whole document
      have hmended : token.mended = token := by
        have hmap := map_mended_tokens single
        rw [tokens_of_ofToken? hsingle] at hmap
        exact List.cons.inj hmap |>.1
      rw [List.map_cons, hmended] at hx
      obtain rfl := eq_of_tokens_eq_cons hx.symm hsingle
      rw [tokens_of_ofToken? hsingle, List.cons.injEq, List.map_eq_nil_iff] at hx
      rw [hx.2]
      exact settled_one value token

/-- Passing over settles on any document. -/
theorem settled_pass {x : Document} (hx : tokens.map Token.mended = x.tokens) :
    Settled pass tokens := by
  refine ⟨.ok (), fun rest => ?_⟩
  have hrun : (Reading.value []).run (tokens.map Token.mended) = some (.done x) := by
    rw [hx, Reading.run_tokens]
    rfl
  exact runPass_of_run hrun (fun _ h => by cases h) rest

theorem settled_field (h : Settled d tokens) (name : String) (isPresent : Bool) :
    Settled (field name isPresent d) (.colon :: tokens) := by
  cases isPresent with
  | false => exact h.behind .colon
  | true => exact settled_fail _ _

theorem settled_unknownField {x : Document} (hx : tokens.map Token.mended = x.tokens) :
    Settled unknownField (.colon :: tokens) :=
  (settled_pass hx).behind .colon

/-! ## Members -/

variable {member : String → α → Decoder α}

/-- Tokens of members begin with those of the first, and any text may stand for a torn
name. -/
theorem exists_of_memberTokens {name : String} {x : Document}
    {members : List (String × Document)} (isFirst : Bool) {front : List Token}
    (hfront : front.map Token.mended =
      if isFirst then memberTokens ((name, x) :: members)
      else moreMemberTokens ((name, x) :: members)) :
    ∃ token tokens behind,
      front = (if isFirst then [] else [.comma]) ++ token :: .colon :: (tokens ++ behind) ∧
      token ≠ .closeBrace ∧ tokens.map Token.mended = x.tokens ∧
      behind.map Token.mended = moreMemberTokens members := by
  have hshape : (if isFirst then memberTokens ((name, x) :: members)
      else moreMemberTokens ((name, x) :: members)) = (if isFirst then [] else [.comma]) ++
        .string (some name) :: .colon :: (x.tokens ++ moreMemberTokens members) := by
    cases isFirst <;> rfl
  rw [hshape] at hfront
  obtain ⟨separators, _, rfl, hseparators, hnamed⟩ := List.map_eq_append_iff.1 hfront
  obtain ⟨token, _, rfl, htoken, hnamed⟩ := List.map_eq_cons_iff.1 hnamed
  obtain ⟨mark, _, rfl, hmark, hbehind⟩ := List.map_eq_cons_iff.1 hnamed
  obtain ⟨tokens, behind, rfl, htokens, hbehind⟩ := List.map_eq_append_iff.1 hbehind
  obtain rfl := Token.eq_of_mended hmark (by simp)
  obtain rfl := Token.eq_of_map_mended hseparators (by cases isFirst <;> simp)
  have hclose : token ≠ .closeBrace := by
    rintro rfl
    cases htoken
  exact ⟨token, tokens, behind, rfl, hclose, htokens, hbehind⟩

/-- **The members in front of a place** are at fault themselves, or are taken whatever
stands at that place. -/
theorem exists_runMembers_append
    (hmember : ∀ (name : String) (a : α) {x : Document} {tokens : List Token},
      tokens.map Token.mended = x.tokens → Settled (member name a) (.colon :: tokens))
    (members : List (String × Document)) (isFirst : Bool) (a : α) {front : List Token}
    (hfront : front.map Token.mended =
      if isFirst then memberTokens members else moreMemberTokens members) :
    ∃ result : Except Error α, ∀ rest, runMembers member isFirst a (front ++ rest) =
      result.bind fun a' => runMembers member (isFirst && members.isEmpty) a' rest := by
  induction members generalizing isFirst a front with
  | nil =>
    have hnil : front = [] := by
      rw [← List.map_eq_nil_iff (f := Token.mended), hfront]
      cases isFirst <;> rfl
    refine ⟨.ok a, fun rest => ?_⟩
    rw [hnil, List.isEmpty_nil, Bool.and_true]
    rfl
  | cons head members ih =>
    obtain ⟨token, tokens, behind, rfl, hclose, htokens, hbehind⟩ :=
      exists_of_memberTokens isFirst hfront
    -- one round takes the first member, or fails of its name or of its value
    have hround (rest) := @runMembers_cons α member isFirst a token hclose
      (.colon :: (tokens ++ (behind ++ rest)))
    cases hname : token.name with
    | error e =>
      refine ⟨.error e, fun rest => ?_⟩
      simp only [hname] at hround
      simpa [Except.bind] using hround rest
    | ok name =>
      obtain ⟨result, hresult⟩ := hmember name a htokens
      have hrun (rest) := hresult (behind ++ rest)
      simp only [List.cons_append] at hrun
      simp only [hname, hrun] at hround
      cases result with
      | error e =>
        refine ⟨.error e, fun rest => ?_⟩
        simpa [Except.bind, Except.map] using hround rest
      | ok a' =>
        obtain ⟨result', hresult'⟩ := ih false a' hbehind
        refine ⟨result', fun rest => ?_⟩
        have hmore := hresult' rest
        rw [Bool.false_and] at hmore
        rw [List.isEmpty_cons, Bool.and_false, ← hmore]
        simpa [Except.map] using hround rest

/-- **Members that carry a part of the value along** leave that part as it is. -/
theorem runMembers_map {member' : String → β → Decoder β} {f : α → β}
    (h : ∀ name a tokens, (member' name (f a)).run tokens =
      ((member name a).run tokens).map fun p => (f p.1, p.2))
    (isFirst : Bool) (a : α) (tokens : List Token) :
    runMembers member' isFirst (f a) tokens =
      (runMembers member isFirst a tokens).map fun p => (f p.1, p.2) := by
  fun_induction runMembers member isFirst a tokens with
  | case1 isFirst a rest => simp [runMembers, Except.map]
  | case2 isFirst a tokens hclose e hseparator =>
    simp only [runMembers_eq isFirst _ hclose, hseparator]
    rfl
  | case3 isFirst a tokens hclose named hseparator e hname =>
    simp only [runMembers_eq isFirst _ hclose, hseparator, hname]
    rfl
  | case4 isFirst a tokens hclose named hseparator name unread hname e hmember =>
    simp only [runMembers_eq isFirst _ hclose, hseparator, hname, h, hmember]
    rfl
  | case5 isFirst a tokens hclose named hseparator name unread hname a' rest hmember ih =>
    simp only [runMembers_eq isFirst _ hclose, hseparator, hname, h, hmember]
    exact ih

end Decoder

end Json

end AggregatedRecords
