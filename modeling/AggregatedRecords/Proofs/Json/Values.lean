import AggregatedRecords.Proofs.Json.Decoder
/-!
# JSON — values of a single token, and fields of records

Texts, booleans, numbers of 64 bits and those of them that may be null are single
tokens, each of which is taken exactly as the document that it is
(`TakesToken`).

A field of a record is under its name in an object, or at its position in an array
(`Document.fieldAt`), and what it is settled to may depend on nothing else
(`Document.Settles`). An object is read member by member, so there a field is
filled at most once (`Document.Fills`).
-/

namespace AggregatedRecords

namespace Json

namespace Numeral

theorem accumulate_lt {n : Nat} (h : n < UInt64.size) (digits : List Nat) :
    (accumulate n digits).1 < UInt64.size := by
  induction digits generalizing n with
  | nil => exact h
  | cons digit digits ih =>
    rw [accumulate]
    split
    · next hfits => exact ih hfits
    · exact h

/-- A natural number that is read has 64 bits. -/
theorem lt_of_number?_eq_natural {numeral : Numeral} {n : Nat}
    (h : numeral.number? = some (.natural n)) : n < UInt64.size := by
  have hsize := accumulate_lt (by decide : 0 < UInt64.size) numeral.whole
  simp only [number?] at h
  split at h
  · cases hfloat : numeral.float? <;> simp [hfloat] at h
  · split at h
    · cases h
      exact hsize
    · split at h
      · cases h
      · cases hfloat : numeral.float? <;> simp [hfloat] at h

end Numeral

namespace Document

variable {α β : Type}

/-- The truth value that a document is. -/
def bool? : Document → Option Bool
  | bool b => some b
  | _ => none

/-- The natural number below a bound that a document is. -/
def natural? (bound : Nat) : Document → Option Nat
  | number numeral =>
    match numeral.number? with
    | some (.natural n) => if n < bound then some n else none
    | _ => none
  | _ => none

/-- The octet that a document is. -/
def octet? (document : Document) : Option UInt8 :=
  (document.natural? UInt8.size).map UInt8.ofNat

/-- What a document is that may be null. -/
def optional? (read : Document → Option α) : Document → Option (Option α)
  | null => some none
  | document => (read document).map some

/-! ## Fields -/

/-- The values of a field of a record. -/
def fieldAt (position : Nat) (name : String) : Document → List Document
  | object members => (object members).valuesAt name
  | array items => items[position]?.toList
  | _ => []

/-- **A field is settled**: by what it is read as, or where it is missing by what
is taken then. -/
def Settles (read : Document → Option α) (values : List Document) (missing value : α) : Prop :=
  match values with
  | [] => value = missing
  | [x] => read x = some value
  | _ => False

/-- **A field is given**: there is one value of it, and that is read. -/
def Gives (read : Document → Option α) (values : List Document) (value : α) : Prop :=
  ∃ x, values = [x] ∧ read x = some value

/-- A field is filled, which is possible once. -/
def Fills (read : Document → Option α) (values : List Document) (before after : Option α) : Prop :=
  match values with
  | [] => after = before
  | [x] => before = none ∧ ∃ a, read x = some a ∧ after = some a
  | _ => False

variable {read : Document → Option α} {values : List Document} {before after : Option α}

theorem fills_cons {x : Document} : Fills read (x :: values) before after ↔
    before = none ∧ ∃ a, read x = some a ∧ Fills read values (some a) after := by
  match values with
  | [] => rfl
  | [_] => simp [Fills]
  | _ :: _ :: _ => simp [Fills]

/-- A field that is filled or missing is settled. -/
theorem exists_fills_iff {missing value : α} :
    (∃ given, Fills read values none given ∧ given.getD missing = value) ↔
      Settles read values missing value := by
  match values with
  | [] => simp [Fills, Settles, eq_comm]
  | [_] =>
    constructor
    · rintro ⟨_, ⟨-, a, ha, rfl⟩, rfl⟩
      exact ha
    · exact fun h => ⟨some value, ⟨rfl, value, h, rfl⟩, rfl⟩
  | _ :: _ :: _ => simp [Fills, Settles]

/-- A field that is filled is given. -/
theorem fills_some_iff {a : α} : Fills read values none (some a) ↔ Gives read values a := by
  match values with
  | [] => simp [Fills, Gives]
  | [_] => simp [Fills, Gives]
  | _ :: _ :: _ => simp [Fills, Gives]

/-- A value that may be given once is taken in if it has not been. -/
theorem exists_once_iff {γ : Type} {x : Document} {f : α → γ} {P : γ → Prop} :
    (∃ given, (if before.isSome then none else read x).map f = some given ∧ P given) ↔
      before = none ∧ ∃ a, read x = some a ∧ P (f a) := by
  cases before with
  | some _ => simp
  | none =>
    constructor
    · rintro ⟨_, hgiven, hP⟩
      obtain ⟨a, ha, rfl⟩ := Option.map_eq_some_iff.1 hgiven
      exact ⟨rfl, a, ha, hP⟩
    · rintro ⟨-, a, ha, hP⟩
      exact ⟨f a, Option.map_eq_some_iff.2 ⟨a, ha, rfl⟩, hP⟩

/-- The first of some items fills a field. -/
theorem readItem_eq_some_iff {readNext : Option α → List Document → Option β}
    {items : List Document} {b : β} : Decoder.readItem read readNext items = some b ↔
      ∃ given, Fills read items[0]?.toList none given ∧ readNext given items.tail = some b := by
  cases items with
  | nil => simp [Decoder.readItem, Fills]
  | cons x items =>
    constructor
    · intro h
      obtain ⟨a, ha, hnext⟩ := Option.bind_eq_some_iff.1 h
      exact ⟨some a, ⟨rfl, a, ha, rfl⟩, hnext⟩
    · rintro ⟨_, ⟨-, a, ha, rfl⟩, hnext⟩
      exact Option.bind_eq_some_iff.2 ⟨a, ha, hnext⟩

/-- A missing field is settled to what is taken then. -/
theorem Settles.eq_missing {missing value : α} (h : Settles read values missing value)
    (hvalues : values = []) : value = missing := by
  subst hvalues
  exact h

theorem valuesAt_cons (name other : String) (x : Document) (members : List (String × Document)) :
    (object ((other, x) :: members)).valuesAt name =
      if other = name then x :: (object members).valuesAt name
      else (object members).valuesAt name := by
  by_cases h : other = name <;> simp [valuesAt, h]

end Document

namespace Decoder

open Document

variable {α β : Type} {value : Token → Except Error α} {read : Document → Option α}

theorem toOption_reject (token : Token) (wanted : Wanted) :
    (token.reject wanted : Except Error α).toOption = none := by
  cases h : (token.reject wanted : Except Error α) with
  | error e => rfl
  | ok a => exact absurd h reject_ne_ok

theorem takesToken_text : TakesToken Token.text string? where
  toOption_eq token := by
    have hreject : (token.reject .text : Except Error String).toOption = none :=
      toOption_reject token .text
    cases token with
    | string s =>
      cases s with
      | none => exact hreject
      | some s => rfl
    | _ => exact hreject
  isSingle {document a} h := by
    cases document with
    | string s => exact ⟨.string (some s), rfl⟩
    | _ => cases h

theorem takesToken_boolean : TakesToken Token.boolean bool? where
  toOption_eq token := by
    have hreject : (token.reject .boolean : Except Error Bool).toOption = none :=
      toOption_reject token .boolean
    cases token with
    | bool b => rfl
    | string s => cases s <;> exact hreject
    | _ => exact hreject
  isSingle {document a} h := by
    cases document with
    | bool b => exact ⟨.bool b, rfl⟩
    | _ => cases h

theorem takesToken_naturalBelow (bound : Nat) (wanted : Wanted) :
    TakesToken (Token.naturalBelow bound wanted) (natural? bound) where
  toOption_eq token := by
    cases token with
    | number numeral =>
      cases h : numeral.number? with
      | none =>
        simp [Token.naturalBelow, Token.found, Token.reject, h, ofToken?, natural?, Except.toOption]
      | some n =>
        cases n with
        | natural n =>
          by_cases hlt : n < bound <;>
            simp [Token.naturalBelow, Token.found, h, hlt, ofToken?, natural?, Except.toOption]
        | _ =>
          simp [Token.naturalBelow, Token.found, Token.reject, h, ofToken?, natural?,
            Except.toOption]
    | string s => cases s <;> rfl
    | _ => rfl
  isSingle {document a} h := by
    cases document with
    | number numeral => exact ⟨.number numeral, rfl⟩
    | _ => cases h

/-- What is taken may be changed. -/
theorem TakesToken.map (h : TakesToken value read) (f : α → β) :
    TakesToken (fun token => (value token).map f) fun document => (read document).map f where
  toOption_eq token := by
    have hread : ((ofToken? token).bind fun document => (read document).map f) =
        ((ofToken? token).bind read).map f := by
      cases ofToken? token <;> rfl
    rw [hread, ← h.toOption_eq token]
    cases value token <;> rfl
  isSingle {document b} hread := by
    obtain ⟨a, ha, -⟩ := Option.map_eq_some_iff.1 hread
    exact h.isSingle ha

/-- A natural number that is read is below the bound of 64 bits anyway. -/
theorem uint64?_eq (document : Document) :
    document.uint64? = (document.natural? UInt64.size).map UInt64.ofNat := by
  cases document with
  | number numeral =>
    cases h : numeral.number? with
    | none => simp [uint64?, natural?, h]
    | some n =>
      cases n with
      | natural n => simp [uint64?, natural?, h, Numeral.lt_of_number?_eq_natural h]
      | _ => simp [uint64?, natural?, h]
  | _ => rfl

theorem takesToken_uint64 : TakesToken Token.uint64 uint64? := by
  rw [funext uint64?_eq]
  exact (takesToken_naturalBelow UInt64.size .size).map UInt64.ofNat

theorem takesToken_octet : TakesToken Token.octet octet? :=
  (takesToken_naturalBelow UInt8.size .octet).map UInt8.ofNat

/-- Null is taken for nothing. -/
theorem TakesToken.optional (h : TakesToken value read) :
    TakesToken (Token.optional value) (optional? read) where
  toOption_eq token := by
    have hvalue := h.toOption_eq token
    by_cases hnull : token = .null
    · subst hnull
      rfl
    · have hread : (ofToken? token).bind (optional? read) =
          ((ofToken? token).bind read).map some := by
        cases token with
        | null => exact absurd rfl hnull
        | string s => cases s <;> rfl
        | _ => rfl
      rw [Token.optional, if_neg hnull, hread, ← hvalue]
      cases value token <;> rfl
  isSingle {document a} hread := by
    cases document with
    | null => exact ⟨.null, rfl⟩
    | _ =>
      obtain ⟨a, ha, -⟩ := Option.map_eq_some_iff.1 hread
      exact h.isSingle ha

end Decoder

end Json

end AggregatedRecords
