import AggregatedRecords.Bytes
import AggregatedRecords.Consumer
import AggregatedRecords.Json.Error
/-!
# JSON — decoders of typed values

A decoder consumes the tokens of a value. The first problem that is met in
reading order is the one reported, whether the text is no JSON there or does
not match the type.
-/

namespace AggregatedRecords

namespace Json

/-- A way to take a value off the front of tokens. -/
abbrev Decoder (α : Type) := Consumer Error (List Token) α

variable {α β : Type}

/-! ## Single tokens -/

/-- What a value that starts with a token turns out to be. -/
def Token.found : Token → Except Error Found
  | null => .ok .null
  | bool b => .ok (.bool b)
  | number numeral =>
    match numeral.number? with
    | some n => .ok (.number n)
    | none => .error (.fault .syntactic)
  | string (some s) => .ok (.string s)
  | openBracket => .ok .sequence
  | openBrace => .ok .map
  | brokenString taken _ => .error (.fault taken)
  | broken taken _ => .error (.fault taken)
  | _ => .error (.fault .syntactic)

/-- Rejects a token that starts a value of another type than wanted. -/
def Token.reject (token : Token) (wanted : Wanted) : Except Error α :=
  match token.found with
  | .ok found => .error (.mismatch (.invalidType found wanted))
  | .error e => .error e

namespace Token

/-- Takes a text. -/
def text : Token → Except Error String
  | string (some s) => .ok s
  | token => token.reject .text

/-- Takes a boolean. -/
def boolean : Token → Except Error Bool
  | bool b => .ok b
  | token => token.reject .boolean

/-- Takes null. -/
def unit : Token → Except Error Unit
  | null => .ok ()
  | token => token.reject .unit

/-- Takes a natural number below a bound. -/
def naturalBelow (bound : Nat) (wanted : Wanted) (token : Token) : Except Error Nat :=
  match token.found with
  | .ok (.number (.natural n)) =>
    if n < bound then .ok n
    else .error (.mismatch (.invalidValue (.number (.natural n)) wanted))
  | .ok (.number (.negative n)) =>
    .error (.mismatch (.invalidValue (.number (.negative n)) wanted))
  | _ => token.reject wanted

/-- Takes a number of 64 bits. -/
def uint64 (token : Token) : Except Error UInt64 :=
  (token.naturalBelow UInt64.size .size).map UInt64.ofNat

/-- Takes an octet. -/
def octet (token : Token) : Except Error UInt8 :=
  (token.naturalBelow UInt8.size .octet).map UInt8.ofNat

/-- Takes null for nothing, and anything else as a value. -/
def optional (value : Token → Except Error α) (token : Token) : Except Error (Option α) :=
  if token = null then .ok none else (value token).map some

/-- Takes the name of a member. -/
def name : Token → Except Error String
  | string (some s) => .ok s
  | brokenString taken _ => .error (.fault taken)
  | _ => .error (.fault .syntactic)

end Token

namespace Decoder

/-- Takes one token, which must be there. -/
def one (value : Token → Except Error α) : Decoder α where
  run
    | [] => .error (.fault .early)
    | token :: rest => (value token).map fun a => (a, rest)
  shrinks {s a rest} h := by
    match s with
    | [] => simp at h
    | token :: tokens =>
      cases hv : value token with
      | error e => simp [hv, Except.map] at h
      | ok v =>
        simp only [hv, Except.map, Except.ok.injEq, Prod.mk.injEq] at h
        simp [Sized.size, ← h.2]

/-- A token that was taken is gone. -/
theorem one_lt {value : Token → Except Error α} {tokens rest : List Token} {a : α}
    (h : (one value).run tokens = .ok (a, rest)) : rest.length < tokens.length := by
  match tokens with
  | [] => simp [one] at h
  | token :: tokens =>
    cases hv : value token with
    | error e => simp [one, hv, Except.map] at h
    | ok v =>
      simp only [one, hv, Except.map, Except.ok.injEq, Prod.mk.injEq] at h
      simp [← h.2]

/-- Gives the next token, which must be there, and leaves it. -/
def peek : Decoder Token where
  run
    | [] => .error (.fault .early)
    | token :: rest => .ok (token, token :: rest)
  shrinks {s a rest} h := by
    split at h
    · cases h
    · cases h
      exact Nat.le_refl _

/-- Fails as the next token does that is no value of the type wanted. -/
def reject (wanted : Wanted) : Decoder α := one fun token => token.reject wanted

/-- Takes a token that can only be a given one. -/
def punctuation (expected : Token) : Decoder Unit :=
  one fun token => if token = expected then .ok () else .error (.fault .syntactic)

/-- Takes the comma in front of every item but the first. -/
def separator (isFirst : Bool) : Decoder Unit :=
  if isFirst then pure () else punctuation .comma

/-! ## Values that are passed over -/

/-- What may come next in a value that is passed over. -/
inductive Expectation where
  | value
  /-- The first item of an array, or its end. -/
  | item
  /-- The first name in an object, or its end. -/
  | member
  | name
  | colon
  /-- A comma, or the end of the innermost array or object. -/
  | separator
deriving Repr, DecidableEq

/-- The arrays and objects around a place, the innermost first: whether each is
an object, and what may come next there. -/
structure Place where
  around : List Bool
  next : Expectation
deriving Repr, DecidableEq

/-- The place after a value. -/
def Place.afterValue (around : List Bool) : Place := ⟨around, .separator⟩

/-- The place after a token that starts a value. -/
def Place.start (around : List Bool) : Token → Except Fault Place
  | .openBracket => .ok ⟨false :: around, .item⟩
  | .openBrace => .ok ⟨true :: around, .member⟩
  | .null => .ok (afterValue around)
  | .bool _ => .ok (afterValue around)
  | .number _ => .ok (afterValue around)
  | .string _ => .ok (afterValue around)
  | .brokenString _ passed => .error passed
  | .broken _ passed => .error passed
  | _ => .error .syntactic

/-- The place after a name. -/
def Place.startMember (around : List Bool) : Token → Except Fault Place
  | .string _ => .ok ⟨around, .colon⟩
  | .brokenString _ passed => .error passed
  | _ => .error .syntactic

/-- The place after a token. -/
def Place.step (place : Place) (token : Token) : Except Fault Place :=
  match place.next, place.around, token with
  | .value, around, token => start around token
  | .item, false :: around, .closeBracket => .ok (afterValue around)
  | .item, around, token => start around token
  | .member, true :: around, .closeBrace => .ok (afterValue around)
  | .member, around, token => startMember around token
  | .name, around, token => startMember around token
  | .colon, around, .colon => .ok ⟨around, .value⟩
  | .separator, false :: around, .comma => .ok ⟨false :: around, .value⟩
  | .separator, true :: around, .comma => .ok ⟨true :: around, .name⟩
  | .separator, false :: around, .closeBracket => .ok (afterValue around)
  | .separator, true :: around, .closeBrace => .ok (afterValue around)
  | _, _, _ => .error .syntactic

/-- The tokens after the value that a place is in. -/
def runPass (place : Place) : List Token → Except Error (Unit × List Token)
  | [] => .error (.fault .early)
  | token :: rest =>
    match place.step token with
    | .error fault => .error (.fault fault)
    | .ok next => if next = .afterValue [] then .ok ((), rest) else runPass next rest

theorem runPass_shrinks {place : Place} {tokens rest : List Token} {a : Unit}
    (h : runPass place tokens = .ok (a, rest)) : rest.length ≤ tokens.length := by
  fun_induction runPass place tokens <;> simp_all
  omega

/-- Passes over a value of any depth. -/
def pass : Decoder Unit where
  run := runPass ⟨[], .value⟩
  shrinks := runPass_shrinks

/-! ## Objects and arrays -/

/-- What a decoder leaves is no longer than what it was given. -/
theorem length_le {d : Decoder α} {tokens rest : List Token} {a : α}
    (h : d.run tokens = .ok (a, rest)) : rest.length ≤ tokens.length :=
  Consumer.shrinks d h

/-- The rounds of `members`. -/
def runMembers (member : String → α → Decoder α) (isFirst : Bool) (value : α) :
    (tokens : List Token) → Except Error (α × List Token)
  | .closeBrace :: rest => .ok (value, rest)
  | tokens =>
    match _ : (separator isFirst).run tokens with
    | .error e => .error e
    | .ok ((), named) =>
      match _ : (one Token.name).run named with
      | .error e => .error e
      | .ok (name, unread) =>
        match _ : (member name value).run unread with
        | .error e => .error e
        | .ok (value', rest) => runMembers member false value' rest
termination_by tokens => tokens.length
decreasing_by
  have hmember := length_le ‹(member name value).run unread = _›
  have hname := one_lt ‹(one Token.name).run named = _›
  have hseparator := length_le ‹(separator isFirst).run _ = _›
  omega

theorem runMembers_shrinks {member : String → α → Decoder α} {isFirst : Bool} {value a : α}
    {tokens rest : List Token} (h : runMembers member isFirst value tokens = .ok (a, rest)) :
    rest.length ≤ tokens.length := by
  fun_induction runMembers member isFirst value tokens with
  | case1 => simp_all
  | case2 => simp at h
  | case3 => simp at h
  | case4 => simp at h
  | case5 _ _ tokens _ named hseparator name unread hname value' rest' hmember ih =>
    have := ih h
    have := length_le hmember
    have := one_lt hname
    have := length_le hseparator
    omega

/-- Takes the members of an object into a value, after its opening brace and
through its closing one. The value so far decides what a name stands for. -/
def members (member : String → α → Decoder α) (empty : α) : Decoder α where
  run := runMembers member true empty
  shrinks := runMembers_shrinks

/-- Takes the value of a named member, which may occur once. -/
def field (name : String) (isPresent : Bool) (value : Decoder α) : Decoder α :=
  if isPresent then Consumer.fail (.mismatch (.duplicateField name))
  else do
    punctuation .colon
    value

/-- Passes over a member that is not known. -/
def unknownField : Decoder Unit := do
  punctuation .colon
  pass

/-- Takes one more item of an array, if there is one. -/
def item? (isFirst : Bool) (value : Decoder α) : Decoder (Option α) where
  run
    | .closeBracket :: rest => .ok (none, .closeBracket :: rest)
    | tokens => (separator isFirst >>= fun () => some <$> value).run tokens
  shrinks {s a rest} h := by
    split at h
    · cases h
      exact Nat.le_refl _
    · exact Consumer.shrinks _ h

/-- The rounds of `items`. -/
def runItems (value : Token → Except Error α) (isFirst : Bool) (reversed : List α) :
    (tokens : List Token) → Except Error (List α × List Token)
  | .closeBracket :: rest => .ok (reversed.reverse, rest)
  | tokens =>
    match _ : (separator isFirst).run tokens with
    | .error e => .error e
    | .ok ((), unread) =>
      match _ : (one value).run unread with
      | .error e => .error e
      | .ok (a, rest) => runItems value false (a :: reversed) rest
termination_by tokens => tokens.length
decreasing_by
  have hvalue := one_lt ‹(one value).run unread = _›
  have hseparator := length_le ‹(separator isFirst).run _ = _›
  omega

theorem runItems_shrinks {value : Token → Except Error α} {isFirst : Bool} {reversed as : List α}
    {tokens rest : List Token} (h : runItems value isFirst reversed tokens = .ok (as, rest)) :
    rest.length ≤ tokens.length := by
  fun_induction runItems value isFirst reversed tokens with
  | case1 => simp_all
  | case2 => simp at h
  | case3 => simp at h
  | case4 _ _ tokens _ unread hseparator a rest' hvalue ih =>
    have := ih h
    have := one_lt hvalue
    have := length_le hseparator
    omega

/-- Takes items that are single tokens, after the opening bracket of an array
and through its closing one. -/
def items (value : Token → Except Error α) : Decoder (List α) where
  run := runItems value true []
  shrinks := runItems_shrinks

/-- Takes an array whose items are single tokens. -/
def array (value : Token → Except Error α) : Decoder (List α) := do
  match ← peek with
  | .openBracket =>
    punctuation .openBracket
    items value
  | _ => reject .sequence

/-- Takes a record, which is an object of its members or an array of its fields
in order. -/
def record (name : String) (ofMembers ofFields : Decoder α) : Decoder α := do
  match ← peek with
  | .openBrace =>
    punctuation .openBrace
    ofMembers
  | .openBracket =>
    punctuation .openBracket
    let a ← ofFields
    punctuation .closeBracket
    return a
  | _ => reject (.record name)

/-- The value of a text, which holds nothing else. -/
def ofText (d : Decoder α) (s : String) : Except Error α :=
  match d.run (Token.ofText s) with
  | .error e => .error e
  | .ok (a, []) => .ok a
  | .ok (_, _ :: _) => .error (.fault .syntactic)

end Decoder

end Json

end AggregatedRecords
