import AggregatedRecords.Json.Token
/-!
# JSON — documents

What a JSON text says is a `Document`: a number stands in it by its digits, and
an object by its members in their order, names given twice included. Its
`tokens` are the grammar of JSON.

A document is read off tokens one by one, by what may come next within the
arrays and objects that are open. The reader gives a document for its tokens
and for nothing else (`Document.ofTokens?_eq_some_iff`), so a text has a
document only if it is JSON as a whole.
-/

namespace AggregatedRecords

namespace Json

/-- What a JSON text says. -/
inductive Document where
  | null
  | bool (b : Bool)
  | number (numeral : Numeral)
  | string (s : String)
  | array (items : List Document)
  | object (members : List (String × Document))

namespace Document

/-! ## The grammar -/

mutual

/-- The tokens of a document. -/
def tokens : Document → List Token
  | null => [.null]
  | bool b => [.bool b]
  | number numeral => [.number numeral]
  | string s => [.string (some s)]
  | array items => .openBracket :: (itemTokens items ++ [.closeBracket])
  | object members => .openBrace :: (memberTokens members ++ [.closeBrace])

/-- The tokens of items, with commas between them. -/
def itemTokens : List Document → List Token
  | [] => []
  | item :: items => item.tokens ++ moreItemTokens items

/-- The tokens of items behind others. -/
def moreItemTokens : List Document → List Token
  | [] => []
  | item :: items => .comma :: (item.tokens ++ moreItemTokens items)

/-- The tokens of members, with commas between them. -/
def memberTokens : List (String × Document) → List Token
  | [] => []
  | (name, value) :: members =>
    .string (some name) :: .colon :: (value.tokens ++ moreMemberTokens members)

/-- The tokens of members behind others. -/
def moreMemberTokens : List (String × Document) → List Token
  | [] => []
  | (name, value) :: members =>
    .comma :: .string (some name) :: .colon :: (value.tokens ++ moreMemberTokens members)

end

/-! ## Reading -/

/-- An array or an object that is open around a value, and what of it comes
before the value. -/
inductive Around where
  | array (items : List Document)
  | object (members : List (String × Document)) (name : String)

/-- How far a document has been read, by what may come next. -/
inductive Reading where
  | value (around : List Around)
  /-- The first item of an array, or its end. -/
  | firstItem (around : List Around)
  /-- The first name in an object, or its end. -/
  | firstName (around : List Around)
  /-- A comma behind the last of some items, or the end of the array. -/
  | itemEnd (items : List Document) (last : Document) (around : List Around)
  /-- A comma behind the last of some members, or the end of the object. -/
  | memberEnd (members : List (String × Document)) (last : String × Document)
      (around : List Around)
  /-- A name behind a comma. -/
  | nextName (members : List (String × Document)) (around : List Around)
  /-- The colon behind a name. -/
  | nameEnd (members : List (String × Document)) (name : String) (around : List Around)
  /-- Nothing. -/
  | done (document : Document)

namespace Reading

/-- Goes on behind a value. -/
def after (document : Document) : List Around → Reading
  | [] => done document
  | .array items :: around => itemEnd items document around
  | .object members name :: around => memberEnd members (name, document) around

/-- Reads the first token of a value. -/
def start (around : List Around) : Token → Option Reading
  | .null => some (after .null around)
  | .bool b => some (after (.bool b) around)
  | .number numeral => some (after (.number numeral) around)
  | .string (some s) => some (after (.string s) around)
  | .openBracket => some (firstItem around)
  | .openBrace => some (firstName around)
  | _ => none

/-- Reads a token. -/
def step : Reading → Token → Option Reading
  | value around, token => start around token
  | firstItem around, .closeBracket => some (after (.array []) around)
  | firstItem around, token => start (.array [] :: around) token
  | firstName around, .closeBrace => some (after (.object []) around)
  | firstName around, .string (some s) => some (nameEnd [] s around)
  | itemEnd items last around, .comma => some (value (.array (items ++ [last]) :: around))
  | itemEnd items last around, .closeBracket => some (after (.array (items ++ [last])) around)
  | memberEnd members last around, .comma => some (nextName (members ++ [last]) around)
  | memberEnd members last around, .closeBrace => some (after (.object (members ++ [last])) around)
  | nextName members around, .string (some s) => some (nameEnd members s around)
  | nameEnd members s around, .colon => some (value (.object members s :: around))
  | _, _ => none

/-- Reads tokens. -/
def run (reading : Reading) (tokens : List Token) : Option Reading := tokens.foldlM step reading

@[simp] theorem run_nil (reading : Reading) : reading.run [] = some reading := rfl

theorem run_cons (reading : Reading) (token : Token) (tokens : List Token) :
    reading.run (token :: tokens) = (reading.step token).bind (·.run tokens) := rfl

theorem run_append (reading : Reading) (front behind : List Token) :
    reading.run (front ++ behind) = (reading.run front).bind (·.run behind) :=
  List.foldlM_append

end Reading

/-- The document that tokens are. -/
def ofTokens? (tokens : List Token) : Option Document :=
  match (Reading.value []).run tokens with
  | some (.done document) => some document
  | _ => none

/-- The document of a text, which holds nothing else. -/
def ofText? (s : String) : Option Document := ofTokens? (Token.ofText s)

/-! ## A document is read from its tokens -/

namespace Reading

/-- The first item of an array is read as any value. -/
theorem run_firstItem (around : List Around) (document : Document) (rest : List Token) :
    (firstItem around).run (document.tokens ++ rest) =
      (value (.array [] :: around)).run (document.tokens ++ rest) := by
  cases document <;> simp [tokens, run_cons, step]

mutual

/-- **Where a value may come, a document is read** through its last token. -/
theorem run_tokens (around : List Around) : (document : Document) →
    (value around).run document.tokens = some (after document around)
  | .null | .bool _ | .number _ | .string _ => by
    simp [tokens, run_cons, step, start]
  | .array [] => by
    simp [tokens, itemTokens, run_cons, step, start]
  | .array (item :: items) => by
    have hfirst := run_tokens (.array [] :: around) item
    have hmore := run_moreItemTokens [] item around items
    simp only [tokens, itemTokens, run_cons, step, start, Option.bind_some, List.append_assoc,
      run_firstItem]
    rw [run_append, hfirst]
    exact hmore
  | .object [] => by
    simp [tokens, memberTokens, run_cons, step, start]
  | .object ((name, document) :: members) => by
    have hfirst := run_tokens (.object [] name :: around) document
    have hmore := run_moreMemberTokens [] (name, document) around members
    simp only [tokens, memberTokens, run_cons, step, start, Option.bind_some, List.append_assoc,
      List.cons_append]
    rw [run_append, hfirst]
    exact hmore

/-- Behind an item the others are read through the end of the array. -/
theorem run_moreItemTokens (items : List Document) (last : Document) (around : List Around) :
    (more : List Document) →
    (itemEnd items last around).run (moreItemTokens more ++ [.closeBracket]) =
      some (after (.array (items ++ last :: more)) around)
  | [] => by simp [moreItemTokens, run_cons, step]
  | item :: more => by
    have hitem := run_tokens (.array (items ++ [last]) :: around) item
    have hmore := run_moreItemTokens (items ++ [last]) item around more
    simp only [moreItemTokens, List.cons_append, run_cons, step, Option.bind_some, List.append_assoc]
    rw [run_append, hitem]
    simpa [after] using hmore

/-- Behind a member the others are read through the end of the object. -/
theorem run_moreMemberTokens (members : List (String × Document)) (last : String × Document)
    (around : List Around) : (more : List (String × Document)) →
    (memberEnd members last around).run (moreMemberTokens more ++ [.closeBrace]) =
      some (after (.object (members ++ last :: more)) around)
  | [] => by simp [moreMemberTokens, run_cons, step]
  | (name, document) :: more => by
    have hvalue := run_tokens (.object (members ++ [last]) name :: around) document
    have hmore := run_moreMemberTokens (members ++ [last]) (name, document) around more
    simp only [moreMemberTokens, List.cons_append, run_cons, step, Option.bind_some,
      List.append_assoc]
    rw [run_append, hvalue]
    simpa [after] using hmore

end

end Reading

/-! ## And from no others -/

theorem moreItemTokens_append (items more : List Document) :
    moreItemTokens (items ++ more) = moreItemTokens items ++ moreItemTokens more := by
  induction items with
  | nil => simp [moreItemTokens]
  | cons item items ih => simp [moreItemTokens, ih]

theorem moreMemberTokens_append (members more : List (String × Document)) :
    moreMemberTokens (members ++ more) = moreMemberTokens members ++ moreMemberTokens more := by
  induction members with
  | nil => simp [moreMemberTokens]
  | cons member members ih => simp [moreMemberTokens, ih]

/-- The tokens of items in front of another one. -/
def itemTokensBefore : List Document → List Token
  | [] => []
  | item :: items => itemTokens (item :: items) ++ [.comma]

/-- The tokens of members in front of another one. -/
def memberTokensBefore : List (String × Document) → List Token
  | [] => []
  | member :: members => memberTokens (member :: members) ++ [.comma]

theorem itemTokens_concat (items : List Document) (last : Document) :
    itemTokens (items ++ [last]) = itemTokensBefore items ++ last.tokens := by
  cases items <;> simp [itemTokens, itemTokensBefore, moreItemTokens, moreItemTokens_append]

theorem memberTokens_concat (members : List (String × Document)) (name : String)
    (last : Document) : memberTokens (members ++ [(name, last)]) =
      memberTokensBefore members ++ .string (some name) :: .colon :: last.tokens := by
  cases members <;>
    simp [memberTokens, memberTokensBefore, moreMemberTokens, moreMemberTokens_append]

theorem itemTokensBefore_concat (items : List Document) (last : Document) :
    itemTokensBefore (items ++ [last]) = itemTokens (items ++ [last]) ++ [.comma] := by
  cases items <;> rfl

theorem memberTokensBefore_concat (members : List (String × Document)) (last : String × Document) :
    memberTokensBefore (members ++ [last]) = memberTokens (members ++ [last]) ++ [.comma] := by
  cases members <;> rfl

namespace Reading

/-- The tokens in front of a value within what is open around it. -/
def openTokens : List Around → List Token
  | [] => []
  | .array items :: around => openTokens around ++ .openBracket :: itemTokensBefore items
  | .object members name :: around =>
    openTokens around ++
      .openBrace :: (memberTokensBefore members ++ [.string (some name), .colon])

/-- The tokens that have been read. -/
def taken : Reading → List Token
  | value around => openTokens around
  | firstItem around => openTokens around ++ [.openBracket]
  | firstName around => openTokens around ++ [.openBrace]
  | itemEnd items last around => openTokens around ++ .openBracket :: itemTokens (items ++ [last])
  | memberEnd members last around =>
    openTokens around ++ .openBrace :: memberTokens (members ++ [last])
  | nextName members around => openTokens around ++ .openBrace :: memberTokensBefore members
  | nameEnd members name around =>
    openTokens around ++ .openBrace :: (memberTokensBefore members ++ [.string (some name)])
  | done document => document.tokens

theorem taken_after (document : Document) (around : List Around) :
    (after document around).taken = openTokens around ++ document.tokens := by
  match around with
  | [] => rfl
  | .array items :: around => simp [after, taken, openTokens, itemTokens_concat]
  | .object members name :: around => simp [after, taken, openTokens, memberTokens_concat]

theorem taken_start {around : List Around} {token : Token} {reading : Reading}
    (h : start around token = some reading) : reading.taken = openTokens around ++ [token] := by
  unfold start at h
  split at h
  case h_7 => cases h
  all_goals cases h
  case h_5 | h_6 => rfl
  all_goals exact taken_after _ around

/-- **A token that is read is all that a step adds.** -/
theorem taken_step {reading next : Reading} {token : Token} (h : reading.step token = some next) :
    next.taken = reading.taken ++ [token] := by
  unfold step at h
  split at h
  · exact taken_start h
  · cases h
    rw [taken_after]
    simp [taken, Document.tokens, itemTokens]
  · rw [taken_start h]
    simp [taken, openTokens, itemTokensBefore]
  · cases h
    rw [taken_after]
    simp [taken, Document.tokens, memberTokens]
  · cases h
    simp [taken, memberTokensBefore]
  · cases h
    simp [taken, openTokens, itemTokensBefore_concat]
  · cases h
    rw [taken_after]
    simp [taken, Document.tokens]
  · cases h
    simp [taken, memberTokensBefore_concat]
  · cases h
    rw [taken_after]
    simp [taken, Document.tokens]
  · cases h
    simp [taken]
  · cases h
    simp [taken, openTokens]
  · cases h

theorem taken_run {reading result : Reading} {more : List Token}
    (h : reading.run more = some result) : result.taken = reading.taken ++ more := by
  induction more generalizing reading with
  | nil =>
    cases h
    simp
  | cons token more ih =>
    rw [run_cons, Option.bind_eq_some_iff] at h
    obtain ⟨next, hstep, hrun⟩ := h
    rw [ih hrun, taken_step hstep]
    simp

end Reading

/-- **Tokens are a document exactly if they are its tokens.** -/
theorem ofTokens?_eq_some_iff {tokens : List Token} {document : Document} :
    ofTokens? tokens = some document ↔ tokens = document.tokens := by
  constructor
  · intro h
    unfold ofTokens? at h
    split at h
    · next hrun =>
      cases h
      exact (Reading.taken_run hrun).symm
    · cases h
  · rintro rfl
    simp [ofTokens?, Reading.run_tokens, Reading.after]

/-! ## What a document has -/

variable {α : Type}

/-- The text that a document is. -/
def string? : Document → Option String
  | string s => some s
  | _ => none

/-- The number of 64 bits that a document is. -/
def uint64? : Document → Option UInt64
  | number numeral =>
    match numeral.number? with
    | some (.natural n) => some (UInt64.ofNat n)
    | _ => none
  | _ => none

/-- What the items of an array are. -/
def array? (read : Document → Option α) : Document → Option (List α)
  | array items => items.mapM read
  | _ => none

/-- The values under a name. -/
def valuesAt (name : String) : Document → List Document
  | object members => (members.filter (·.1 = name)).map Prod.snd
  | _ => []

/-- What is under a name, which must be there once. -/
def requiredAt (name : String) (read : Document → Option α) (document : Document) : Option α :=
  match document.valuesAt name with
  | [value] => read value
  | _ => none

/-- What is under a name, which may be missing. -/
def optionalAt (name : String) (read : Document → Option α) (document : Document) :
    Option (Option α) :=
  match document.valuesAt name with
  | [] => some none
  | [value] => (read value).map some
  | _ => none

end Document

end Json

end AggregatedRecords
