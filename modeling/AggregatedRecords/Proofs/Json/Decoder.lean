import AggregatedRecords.Json.Decoder
import AggregatedRecords.Proofs.Json.Document
/-!
# JSON — what decoders take

A decoder takes tokens off the front. Whatever it takes are the tokens of
something, and it gives what that is read as; and if something has a reading, its
tokens are taken (`Decoder.Takes`). This is shown for each way to make a decoder,
so that in the end it can be said of a document what a text of it gives
(`Decoder.ofText_eq_ok_iff`), and nothing is said of tokens any more.

A value that is passed over is a document too (`Decoder.takes_pass`): the places
in it are those of a document that is read (`Decoder.toOption_step`). It may have
torn texts, which no document has, so these are mended first
(`Document.ofMended?`).
-/

namespace AggregatedRecords

namespace Consumer

variable {ε σ α β γ : Type} [Sized σ]

theorem ext_run {c c' : Consumer ε σ α} (h : ∀ s, c.run s = c'.run s) : c = c' := by
  cases c
  cases c'
  congr
  exact funext h

theorem pure_bind_eq (a : α) (next : α → Consumer ε σ β) : pure a >>= next = next a :=
  ext_run fun _ => rfl

theorem bind_bind (c : Consumer ε σ α) (next : α → Consumer ε σ β) (last : β → Consumer ε σ γ) :
    (c >>= next) >>= last = c >>= fun a => next a >>= last := by
  refine ext_run fun s => ?_
  rw [run_bind, run_bind, run_bind]
  cases c.run s <;> rfl

theorem run_map (f : α → β) (c : Consumer ε σ α) (s : σ) :
    (f <$> c).run s = (c.run s).map fun p => (f p.1, p.2) := by
  have hbind : f <$> c = c >>= fun a => pure (f a) := rfl
  rw [hbind, run_bind]
  cases c.run s <;> rfl

end Consumer

namespace Json

open Document

/-- A token, where a torn text is as if it were empty. -/
def Token.mended : Token → Token
  | .string none => .string (some "")
  | token => token

/-- The document of a text, in which torn texts are as if they were empty. -/
def Document.ofMended? (s : String) : Option Document :=
  ofTokens? ((Token.ofText s).map Token.mended)

namespace Decoder

variable {α β δ : Type}

/-! ## Places and documents -/

/-- Whether each of the arrays and objects around a value is an object. -/
def kinds (around : List Around) : List Bool :=
  around.map fun
    | .array _ => false
    | .object _ _ => true

/-- The place that a document is read up to. -/
def placeOf : Reading → Place
  | .value around => ⟨kinds around, .value⟩
  | .firstItem around => ⟨false :: kinds around, .item⟩
  | .firstName around => ⟨true :: kinds around, .member⟩
  | .itemEnd _ _ around => ⟨false :: kinds around, .separator⟩
  | .memberEnd _ _ around => ⟨true :: kinds around, .separator⟩
  | .nextName _ around => ⟨true :: kinds around, .name⟩
  | .nameEnd _ _ around => ⟨true :: kinds around, .colon⟩
  | .done _ => .afterValue []

theorem placeOf_after (document : Document) (around : List Around) :
    placeOf (.after document around) = .afterValue (kinds around) := by
  match around with
  | [] => rfl
  | .array _ :: _ => rfl
  | .object _ _ :: _ => rfl

theorem toOption_start (around : List Around) (token : Token) :
    (Place.start (kinds around) token).toOption =
      (Reading.start around token.mended).map placeOf := by
  cases token with
  | null | bool _ | number _ => exact congrArg some (placeOf_after _ around).symm
  | string s => cases s <;> exact congrArg some (placeOf_after _ around).symm
  | _ => rfl

/-- **Passing over a token is reading it**, mended. -/
theorem toOption_step (reading : Reading) (token : Token) :
    ((placeOf reading).step token).toOption = (reading.step token.mended).map placeOf := by
  cases reading with
  | value around => exact toOption_start around token
  | firstItem around =>
    have hstart := toOption_start (.array [] :: around) token
    cases token with
    | closeBracket => exact congrArg some (placeOf_after _ around).symm
    | string s => cases s <;> exact hstart
    | _ => exact hstart
  | firstName around =>
    cases token with
    | closeBrace => exact congrArg some (placeOf_after _ around).symm
    | string s => cases s <;> rfl
    | _ => rfl
  | itemEnd items last around =>
    cases token with
    | closeBracket => exact congrArg some (placeOf_after _ around).symm
    | string s => cases s <;> rfl
    | _ => rfl
  | memberEnd members last around =>
    cases token with
    | closeBrace => exact congrArg some (placeOf_after _ around).symm
    | string s => cases s <;> rfl
    | _ => rfl
  | nextName _ _ | nameEnd _ _ _ | done _ =>
    cases token with
    | string s => cases s <;> rfl
    | _ => rfl

theorem placeOf_eq_afterValue_iff {reading : Reading} :
    placeOf reading = .afterValue [] ↔ ∃ document, reading = .done document := by
  cases reading <;> simp [placeOf, Place.afterValue]

/-- A token that is read is not torn. -/
theorem mended_of_step {reading next : Reading} {token : Token}
    (h : reading.step token = some next) : token.mended = token := by
  cases token with
  | string s =>
    cases s with
    | none => cases reading <;> cases h
    | some s => rfl
  | _ => rfl

theorem map_mended_of_run {reading result : Reading} {tokens : List Token}
    (h : reading.run tokens = some result) : tokens.map Token.mended = tokens := by
  induction tokens generalizing reading with
  | nil => rfl
  | cons token tokens ih =>
    rw [Reading.run_cons, Option.bind_eq_some_iff] at h
    obtain ⟨next, hstep, hrun⟩ := h
    rw [List.map_cons, mended_of_step hstep, ih hrun]

/-- The tokens of a document are not torn. -/
theorem map_mended_tokens (document : Document) :
    document.tokens.map Token.mended = document.tokens :=
  map_mended_of_run (Reading.run_tokens [] document)

theorem toOption_eq_some_iff {ε : Type} {result : Except ε α} {a : α} :
    result.toOption = some a ↔ result = .ok a := by
  cases result <;> simp [Except.toOption]

/-- What is passed over is the rest of a document. -/
theorem exists_of_runPass {reading : Reading} {tokens rest : List Token}
    (h : runPass (placeOf reading) tokens = .ok ((), rest)) :
    ∃ front document, tokens = front ++ rest ∧
      reading.run (front.map Token.mended) = some (.done document) := by
  induction tokens generalizing reading with
  | nil => cases h
  | cons token tokens ih =>
    have hstep := toOption_step reading token
    rw [runPass] at h
    split at h
    · cases h
    · next place hplace =>
      rw [hplace, Except.toOption, eq_comm, Option.map_eq_some_iff] at hstep
      obtain ⟨next, hnext, rfl⟩ := hstep
      split at h
      · next hdone =>
        obtain ⟨document, rfl⟩ := placeOf_eq_afterValue_iff.1 hdone
        cases h
        exact ⟨[token], document, rfl, by simp [Reading.run_cons, hnext]⟩
      · obtain ⟨front, document, rfl, hrun⟩ := ih h
        exact ⟨token :: front, document, rfl, by simp [Reading.run_cons, hnext, hrun]⟩

/-- The rest of a document is passed over, torn or not. -/
theorem runPass_of_run {reading : Reading} {front : List Token} {document : Document}
    (h : reading.run (front.map Token.mended) = some (.done document))
    (hopen : ∀ d, reading ≠ .done d) (rest : List Token) :
    runPass (placeOf reading) (front ++ rest) = .ok ((), rest) := by
  induction front generalizing reading with
  | nil =>
    cases h
    exact absurd rfl (hopen document)
  | cons token front ih =>
    rw [List.map_cons, Reading.run_cons, Option.bind_eq_some_iff] at h
    obtain ⟨next, hnext, hrun⟩ := h
    have hstep := toOption_step reading token
    rw [hnext, Option.map_some, toOption_eq_some_iff] at hstep
    rw [List.cons_append, runPass, hstep]
    by_cases hdone : ∃ d, next = .done d
    · -- nothing is read after the last token
      obtain ⟨d, rfl⟩ := hdone
      cases front with
      | nil => exact if_pos rfl
      | cons token front => cases hrun
    · have hplace : placeOf next ≠ .afterValue [] := fun h => hdone (placeOf_eq_afterValue_iff.1 h)
      exact (if_neg hplace).trans (ih hrun fun d h => hdone ⟨d, h⟩)

/-! ## What a decoder takes -/

/-- **A decoder takes what has a reading.** What it takes off the front of tokens
are the tokens of something, mended, and it gives the reading of that. And the
tokens of anything with a reading are taken. -/
structure Takes (d : Decoder α) (shape : δ → List Token) (read : δ → Option α) : Prop where
  sound : ∀ {tokens a rest}, d.run tokens = .ok (a, rest) →
    ∃ front x, tokens = front ++ rest ∧ front.map Token.mended = shape x ∧ read x = some a
  complete : ∀ {x a}, read x = some a → ∀ rest, d.run (shape x ++ rest) = .ok (a, rest)

variable {d : Decoder α} {shape : δ → List Token} {read : δ → Option α}
  {value : Token → Except Error α} {readValue : Document → Option α}

/-- The next token is looked at, and stays. -/
theorem run_peek_eq_ok_iff {token : Token} {tokens rest : List Token} :
    peek.run tokens = .ok (token, rest) ↔ rest = tokens ∧ ∃ more, tokens = token :: more := by
  cases tokens with
  | nil => simp [peek]
  | cons head tokens => simp [peek, and_comm, eq_comm]

/-- One token is taken. -/
theorem run_one_eq_ok_iff {value : Token → Except Error α} {tokens rest : List Token} {a : α} :
    (one value).run tokens = .ok (a, rest) ↔
      ∃ token, tokens = token :: rest ∧ value token = .ok a := by
  cases tokens with
  | nil => simp [one]
  | cons head tokens =>
    have htokens : (∃ token, head :: tokens = token :: rest ∧ value token = .ok a) ↔
        tokens = rest ∧ value head = .ok a := by
      simp [and_assoc]
    rw [htokens]
    cases h : value head <;> simp [one, h, Except.map, and_comm]

/-- A token that can only be a given one is taken exactly if it is that one. -/
theorem run_punctuation_eq_ok_iff {token : Token} {tokens rest : List Token} :
    (punctuation token).run tokens = .ok ((), rest) ↔ tokens = token :: rest := by
  simp [punctuation, run_one_eq_ok_iff]

/-- Anything may be passed over. -/
theorem takes_pass : Takes pass Document.tokens fun _ => some () where
  sound {tokens a rest} h := by
    have hpass : runPass (placeOf (.value [])) tokens = .ok ((), rest) := h
    obtain ⟨front, document, rfl, hrun⟩ := exists_of_runPass hpass
    have hdocument : ofTokens? (front.map Token.mended) = some document := by
      rw [ofTokens?, hrun]
    exact ⟨front, document, rfl, ofTokens?_eq_some_iff.1 hdocument, rfl⟩
  complete {x a} _ rest := by
    have hrun := Reading.run_tokens [] x
    rw [← map_mended_tokens x] at hrun
    exact runPass_of_run hrun (fun _ h => by cases h) rest

/-- The document that a single token is. -/
def ofToken? : Token → Option Document
  | .null => some .null
  | .bool b => some (.bool b)
  | .number numeral => some (.number numeral)
  | .string (some s) => some (.string s)
  | _ => none

theorem tokens_of_ofToken? {token : Token} {document : Document}
    (h : ofToken? token = some document) : document.tokens = [token] := by
  unfold ofToken? at h
  split at h <;> cases h <;> rfl

/-- **A single token is taken** as the document that it is, and no longer document
has a reading. -/
structure TakesToken (value : Token → Except Error α) (read : Document → Option α) : Prop where
  toOption_eq : ∀ token, (value token).toOption = (ofToken? token).bind read
  isSingle : ∀ {document a}, read document = some a →
    ∃ token, ofToken? token = some document

theorem TakesToken.takes (h : TakesToken value readValue) :
    Takes (one value) Document.tokens readValue where
  sound {tokens a rest} hrun := by
    obtain ⟨token, rfl, hvalue⟩ := run_one_eq_ok_iff.1 hrun
    have hread := h.toOption_eq token
    rw [hvalue, Except.toOption, eq_comm, Option.bind_eq_some_iff] at hread
    obtain ⟨document, htoken, hread⟩ := hread
    refine ⟨[token], document, rfl, ?_, hread⟩
    rw [← tokens_of_ofToken? htoken, map_mended_tokens]
  complete {x a} hread rest := by
    obtain ⟨token, htoken⟩ := h.isSingle hread
    have hvalue := h.toOption_eq token
    rw [htoken, Option.bind_some, hread, toOption_eq_some_iff] at hvalue
    rw [tokens_of_ofToken? htoken]
    exact run_one_eq_ok_iff.2 ⟨token, rfl, hvalue⟩

namespace Takes

/-- What is given may be changed. -/
theorem map (h : Takes d shape read) (f : α → β) :
    Takes (f <$> d) shape fun x => (read x).map f where
  sound {tokens b rest} hrun := by
    obtain ⟨a, mid, ha, hb⟩ := Consumer.run_bind_eq_ok_iff.1 hrun
    obtain ⟨front, x, hfront, hx, hread⟩ := h.sound ha
    cases hb
    exact ⟨front, x, hfront, hx, by rw [hread, Option.map_some]⟩
  complete {x b} hread rest := by
    obtain ⟨a, ha, rfl⟩ := Option.map_eq_some_iff.1 hread
    exact Consumer.run_bind_of_ok (h.complete ha rest)

/-- What is given may be refused, if nothing more is taken. -/
theorem check (h : Takes d shape read) {next : α → Decoder β} {accept? : α → Option β}
    (hnext : ∀ a tokens b rest,
      (next a).run tokens = .ok (b, rest) ↔ accept? a = some b ∧ rest = tokens) :
    Takes (d >>= next) shape fun x => (read x).bind accept? where
  sound {tokens b rest} hrun := by
    obtain ⟨a, mid, ha, hb⟩ := Consumer.run_bind_eq_ok_iff.1 hrun
    obtain ⟨front, x, hfront, hx, hread⟩ := h.sound ha
    obtain ⟨haccept, rfl⟩ := (hnext a mid b rest).1 hb
    exact ⟨front, x, hfront, hx, by rw [hread, Option.bind_some, haccept]⟩
  complete {x b} hread rest := by
    obtain ⟨a, ha, haccept⟩ := Option.bind_eq_some_iff.1 hread
    rw [Consumer.run_bind_of_ok (h.complete ha rest)]
    exact (hnext a rest b rest).2 ⟨haccept, rfl⟩

/-- A given token may stand in front. -/
theorem behind (h : Takes d shape read) {token : Token} (htoken : token.mended = token) :
    Takes (do punctuation token; d) (fun x => token :: shape x) read where
  sound {tokens a rest} hrun := by
    obtain ⟨_, mid, hfirst, hmore⟩ := Consumer.run_bind_eq_ok_iff.1 hrun
    obtain ⟨front, x, rfl, hx, hread⟩ := h.sound hmore
    obtain rfl := run_punctuation_eq_ok_iff.1 hfirst
    exact ⟨token :: front, x, rfl, by rw [List.map_cons, htoken, hx], hread⟩
  complete {x a} hread rest := by
    have hfirst : (punctuation token).run (token :: shape x ++ rest) = .ok ((), shape x ++ rest) :=
      run_punctuation_eq_ok_iff.2 rfl
    rw [Consumer.run_bind_of_ok hfirst]
    exact h.complete hread rest

end Takes

/-- A decoder that fails takes what has no reading. -/
theorem takes_fail (e : Error) (h : ∀ x, read x = none) : Takes (Consumer.fail e) shape read where
  sound hrun := by cases hrun
  complete {x a} hread := by
    rw [h x] at hread
    cases hread

/-! ## Objects -/

/-- The tokens of members and of the end of their object. -/
def closedMembers (isFirst : Bool) (members : List (String × Document)) : List Token :=
  (if isFirst then memberTokens members else moreMemberTokens members) ++ [.closeBrace]

/-- The value of a member is taken, once. -/
theorem takes_field {d : Decoder α} (h : Takes d Document.tokens readValue) (name : String)
    (isPresent : Bool) :
    Takes (field name isPresent d) (fun x => .colon :: x.tokens)
      fun x => if isPresent then none else readValue x := by
  cases isPresent with
  | false => exact h.behind rfl
  | true =>
    constructor
    · intro tokens a rest hrun
      cases hrun
    · intro x a hread
      cases hread

theorem takes_unknownField :
    Takes unknownField (fun x : Document => .colon :: x.tokens) fun _ => some () :=
  takes_pass.behind rfl

section Members

variable {member : String → α → Decoder α} {absorb : α → String × Document → Option α}

/-- The tokens of one more member. -/
theorem closedMembers_cons (isFirst : Bool) (name : String) (x : Document)
    (members : List (String × Document)) :
    closedMembers isFirst ((name, x) :: members) =
      (if isFirst then [] else [.comma]) ++
        .string (some name) :: .colon :: (x.tokens ++ closedMembers false members) := by
  cases isFirst <;> simp [closedMembers, memberTokens, moreMemberTokens]

/-- The comma in front is taken where it has to be. -/
theorem run_separator_eq_ok_iff {isFirst : Bool} {tokens rest : List Token} :
    (separator isFirst).run tokens = .ok ((), rest) ↔
      tokens = (if isFirst then [] else [.comma]) ++ rest := by
  cases isFirst with
  | false => exact run_punctuation_eq_ok_iff
  | true => simp [separator]

/-- A name is taken as it is, and is not torn. -/
theorem run_name_eq_ok_iff {tokens rest : List Token} {name : String} :
    (one Token.name).run tokens = .ok (name, rest) ↔ tokens = .string (some name) :: rest := by
  have hname (token : Token) : token.name = .ok name ↔ token = .string (some name) := by
    cases token with
    | string s => cases s <;> simp [Token.name]
    | _ => simp [Token.name]
  simp [run_one_eq_ok_iff, hname]

/-- One more round takes a comma where one has to be, a name and the value of the member,
unless the object ends. -/
theorem runMembers_eq (isFirst : Bool) (a : α) {tokens : List Token}
    (hclose : ∀ rest, tokens ≠ .closeBrace :: rest) :
    runMembers member isFirst a tokens =
      match (separator isFirst).run tokens with
      | .error e => .error e
      | .ok ((), named) =>
        match (one Token.name).run named with
        | .error e => .error e
        | .ok (name, unread) =>
          match (member name a).run unread with
          | .error e => .error e
          | .ok (a', rest) => runMembers member false a' rest := by
  rw [runMembers.eq_2 _ _ _ _ hclose]
  split
  · next hs => rw [hs]
  · next hs =>
    rw [hs]
    dsimp only
    split
    · next hn => rw [hn]
    · next hn =>
      rw [hn]
      dsimp only
      split
      · next hm => rw [hm]
      · next hm => rw [hm]

/-- A token behind the comma is the name of the next member, or is none. -/
theorem runMembers_cons (isFirst : Bool) (a : α) {token : Token} (hclose : token ≠ .closeBrace)
    (unread : List Token) :
    runMembers member isFirst a ((if isFirst then [] else [.comma]) ++ token :: unread) =
      match token.name with
      | .error e => .error e
      | .ok name =>
        match (member name a).run unread with
        | .error e => .error e
        | .ok (a', rest) => runMembers member false a' rest := by
  have htokens : ∀ rest,
      (if isFirst then [] else [.comma]) ++ token :: unread ≠ .closeBrace :: rest := by
    cases isFirst <;> simp [hclose]
  have hseparator : (separator isFirst).run
      ((if isFirst then [] else [.comma]) ++ token :: unread) = .ok ((), token :: unread) :=
    run_separator_eq_ok_iff.2 rfl
  rw [runMembers_eq isFirst a htokens, hseparator]
  dsimp only [one]
  cases token.name <;> rfl

/-- One more member is taken. -/
theorem runMembers_of_ok {isFirst : Bool} {name : String} {a a' : α} {unread rest : List Token}
    (h : (member name a).run unread = .ok (a', rest)) :
    runMembers member isFirst a
        ((if isFirst then [] else [.comma]) ++ .string (some name) :: unread) =
      runMembers member false a' rest := by
  rw [runMembers_cons isFirst a (by simp)]
  dsimp only [Token.name]
  rw [h]

/-- **Members are taken** if each of them is, one after the other. -/
theorem takes_members
    (h : ∀ name a, Takes (member name a) (fun x : Document => .colon :: x.tokens)
      fun x => absorb a (name, x)) (empty : α) :
    Takes (members member empty) (closedMembers true)
      fun members => members.foldlM absorb empty where
  sound {tokens a rest} hrun := by
    have hall : ∀ isFirst value tokens,
        runMembers member isFirst value tokens = .ok (a, rest) →
          ∃ front members, tokens = front ++ rest ∧
            front.map Token.mended = closedMembers isFirst members ∧
              members.foldlM absorb value = some a := by
      intro isFirst value tokens hrun
      fun_induction runMembers member isFirst value tokens with
      | case1 isFirst value tokens =>
        cases hrun
        refine ⟨[.closeBrace], [], rfl, ?_, rfl⟩
        cases isFirst <;> rfl
      | case2 => cases hrun
      | case3 => cases hrun
      | case4 => cases hrun
      | case5 isFirst value tokens _ named hseparator name unread hname value' rest' hmember ih =>
        obtain ⟨front, members, rfl, hfront, hfold⟩ := ih hrun
        obtain ⟨taken, x, rfl, htaken, habsorb⟩ := (h name value).sound hmember
        obtain rfl := run_name_eq_ok_iff.1 hname
        obtain rfl := run_separator_eq_ok_iff.1 hseparator
        refine ⟨(if isFirst then [] else [.comma]) ++ .string (some name) :: (taken ++ front),
          (name, x) :: members, by simp, ?_, ?_⟩
        · rw [closedMembers_cons, List.map_append, List.map_cons, List.map_append, htaken, hfront]
          cases isFirst <;> rfl
        · rw [List.foldlM_cons, habsorb]
          exact hfold
    exact hall true empty tokens hrun
  complete {members a} hread rest := by
    have hall : ∀ members isFirst value, members.foldlM absorb value = some a →
        runMembers member isFirst value (closedMembers isFirst members ++ rest) =
          .ok (a, rest) := by
      intro members
      induction members with
      | nil =>
        intro isFirst value hread
        cases hread
        cases isFirst <;> exact runMembers.eq_1 ..
      | cons head members ih =>
        intro isFirst value hread
        obtain ⟨name, x⟩ := head
        rw [List.foldlM_cons] at hread
        obtain ⟨value', habsorb, hfold⟩ := Option.bind_eq_some_iff.1 hread
        have hmember := (h name value).complete habsorb (closedMembers false members ++ rest)
        rw [closedMembers_cons, List.append_assoc, List.cons_append, List.cons_append,
          List.append_assoc]
        exact (runMembers_of_ok hmember).trans (ih false value' hfold)
    exact hall members true empty hread

end Members

/-! ## Arrays -/

/-- The tokens of items and of the end of their array. -/
def closedItems (isFirst : Bool) (items : List Document) : List Token :=
  (if isFirst then itemTokens items else moreItemTokens items) ++ [.closeBracket]

/-- The tokens of one more item. -/
theorem closedItems_cons (isFirst : Bool) (x : Document) (items : List Document) :
    closedItems isFirst (x :: items) =
      (if isFirst then [] else [.comma]) ++ (x.tokens ++ closedItems false items) := by
  cases isFirst <;> simp [closedItems, itemTokens, moreItemTokens]

/-- There is one more item, or the array ends. -/
theorem run_item?_eq_ok {d : Decoder α} {isFirst : Bool} {tokens rest : List Token} {o : Option α}
    (h : (item? isFirst d).run tokens = .ok (o, rest)) :
    (o = none ∧ rest = tokens ∧ ∃ more, tokens = .closeBracket :: more) ∨
      ∃ a unread, o = some a ∧ tokens = (if isFirst then [] else [.comma]) ++ unread ∧
        d.run unread = .ok (a, rest) := by
  simp only [item?] at h
  split at h
  · next more =>
    cases h
    exact .inl ⟨rfl, rfl, more, rfl⟩
  · obtain ⟨_, unread, hseparator, hrun⟩ := Consumer.run_bind_eq_ok_iff.1 h
    obtain ⟨a, mid, ha, hsome⟩ := Consumer.run_bind_eq_ok_iff.1 hrun
    cases hsome
    exact .inr ⟨a, unread, rfl, run_separator_eq_ok_iff.1 hseparator, ha⟩

theorem run_item?_of_ok {d : Decoder α} {isFirst : Bool} {unread rest : List Token} {a : α}
    (hclose : ∀ more, unread ≠ .closeBracket :: more) (h : d.run unread = .ok (a, rest)) :
    (item? isFirst d).run ((if isFirst then [] else [.comma]) ++ unread) = .ok (some a, rest) := by
  have hsome : (some <$> d).run unread = .ok (some a, rest) := Consumer.run_bind_of_ok h
  simp only [item?]
  split
  · next more hmore =>
    cases isFirst with
    | false => cases hmore
    | true => exact absurd hmore (hclose more)
  · rw [Consumer.run_bind_of_ok (run_separator_eq_ok_iff.2 rfl)]
    exact hsome

/-- A document does not begin with the end of an array. -/
theorem tokens_append_ne (document : Document) (rest more : List Token) :
    document.tokens ++ rest ≠ .closeBracket :: more := by
  cases document <;> simp [tokens]

/-- Reads the first of some items, if there is one, and then the others. -/
def readItem (read : Document → Option α) (readNext : Option α → List Document → Option β) :
    List Document → Option β
  | [] => readNext none []
  | x :: items => (read x).bind fun a => readNext (some a) items

theorem readItem_eq_none {read : Document → Option α}
    {readNext : Option α → List Document → Option β} (h : ∀ o items, readNext o items = none)
    (items : List Document) : readItem read readNext items = none := by
  cases items <;> simp [readItem, h]

/-- **An item is taken** if there is one, and then the others. -/
theorem takes_item? {d : Decoder α} {next : Option α → Decoder β}
    {readNext : Option α → List Document → Option β} (h : Takes d Document.tokens readValue)
    (hnext : ∀ o, Takes (next o) (closedItems false) (readNext o)) (isFirst : Bool) :
    Takes (item? isFirst d >>= next) (closedItems isFirst) (readItem readValue readNext) where
  sound {tokens b rest} hrun := by
    obtain ⟨o, mid, hitem, hmore⟩ := Consumer.run_bind_eq_ok_iff.1 hrun
    obtain ⟨front, items, rfl, hfront, hread⟩ := (hnext o).sound hmore
    obtain ⟨rfl, hmid, more, hclose⟩ | ⟨a, unread, rfl, rfl, ha⟩ := run_item?_eq_ok hitem
    · -- the end of the array is still there, so no items are
      obtain rfl : items = [] := by
        cases items with
        | nil => rfl
        | cons x items =>
          rw [closedItems_cons] at hfront
          cases front with
          | nil => cases hfront
          | cons token front =>
            rw [← hmid] at hclose
            cases hclose
            cases hfront
      refine ⟨front, [], hmid.symm, hfront.trans ?_, hread⟩
      cases isFirst <;> rfl
    · obtain ⟨taken, x, rfl, htaken, hx⟩ := h.sound ha
      refine ⟨(if isFirst then [] else [.comma]) ++ (taken ++ front), x :: items, by simp, ?_, ?_⟩
      · rw [closedItems_cons, List.map_append, List.map_append, htaken, hfront]
        cases isFirst <;> rfl
      · rw [readItem, hx, Option.bind_some, hread]
  complete {items b} hread rest := by
    cases items with
    | nil =>
      have hclosed : closedItems isFirst [] = closedItems false [] := by cases isFirst <;> rfl
      have hitem : (item? isFirst d).run (closedItems false [] ++ rest) =
          .ok (none, closedItems false [] ++ rest) := rfl
      rw [hclosed, Consumer.run_bind_of_ok hitem]
      exact (hnext none).complete hread rest
    | cons x items =>
      obtain ⟨a, ha, hmore⟩ := Option.bind_eq_some_iff.1 hread
      have hx := h.complete ha (closedItems false items ++ rest)
      rw [closedItems_cons, List.append_assoc, List.append_assoc,
        Consumer.run_bind_of_ok (run_item?_of_ok (tokens_append_ne x _) hx)]
      exact (hnext (some a)).complete hmore rest

/-- No more items than these are taken. -/
theorem takes_closeBracket (b : β) (isFirst : Bool) :
    Takes (do punctuation .closeBracket; return b) (closedItems isFirst)
      fun items => if items = [] then some b else none where
  sound {tokens c rest} hrun := by
    obtain ⟨_, mid, hclose, hvalue⟩ := Consumer.run_bind_eq_ok_iff.1 hrun
    obtain rfl := run_punctuation_eq_ok_iff.1 hclose
    cases hvalue
    refine ⟨[.closeBracket], [], rfl, ?_, rfl⟩
    cases isFirst <;> rfl
  complete {items c} hread rest := by
    obtain ⟨rfl, hc⟩ := Option.ite_none_right_eq_some.1 hread
    cases hc
    cases isFirst <;> exact Consumer.run_bind_of_ok (run_punctuation_eq_ok_iff.2 rfl)

/-! ## Records -/

/-- A value of another type is not taken. -/
theorem reject_ne_ok {token : Token} {wanted : Wanted} {a : α} : token.reject wanted ≠ .ok a := by
  intro h
  unfold Token.reject at h
  split at h <;> cases h

/-- **A record is taken** as an object of its members or as an array of its items. -/
theorem takes_record {ofMembers ofItems : Decoder α}
    {readMembers : List (String × Document) → Option α} {readItems : List Document → Option α}
    (hmembers : Takes ofMembers (closedMembers true) readMembers)
    (hitems : Takes (do let a ← ofItems; punctuation .closeBracket; return a) (closedItems true)
      readItems) (name : String) :
    Takes (record name ofMembers ofItems) Document.tokens fun
      | .object members => readMembers members
      | .array items => readItems items
      | _ => none where
  sound {tokens a rest} hrun := by
    obtain ⟨token, mid, hpeek, hmore⟩ := Consumer.run_bind_eq_ok_iff.1 hrun
    obtain ⟨rfl, -⟩ := run_peek_eq_ok_iff.1 hpeek
    split at hmore
    · obtain ⟨front, members, hfront, hshape, hread⟩ := (hmembers.behind rfl).sound hmore
      exact ⟨front, .object members, hfront, hshape, hread⟩
    · obtain ⟨front, items, hfront, hshape, hread⟩ := (hitems.behind rfl).sound hmore
      exact ⟨front, .array items, hfront, hshape, hread⟩
    · obtain ⟨_, -, hreject⟩ := run_one_eq_ok_iff.1 hmore
      exact absurd hreject reject_ne_ok
  complete {x a} hread rest := by
    cases x with
    | object members =>
      exact (hmembers.behind (rfl : Token.mended .openBrace = .openBrace)).complete hread rest
    | array items =>
      exact (hitems.behind (rfl : Token.mended .openBracket = .openBracket)).complete hread rest
    | _ => cases hread

/-! ## Texts -/

theorem ofText_eq_ok {d : Decoder α} {s : String} {a : α} :
    ofText d s = .ok a ↔ d.run (Token.ofText s) = .ok (a, []) := by
  unfold ofText
  split <;> simp_all

/-- A text without torn texts is the same document. -/
theorem ofMended?_of_ofText? {s : String} {document : Document}
    (h : Document.ofText? s = some document) : Document.ofMended? s = some document := by
  have htokens : Token.ofText s = document.tokens := ofTokens?_eq_some_iff.1 h
  rw [Document.ofMended?, htokens, map_mended_tokens, ← htokens]
  exact h

/-- **What is read from a text** is the reading of the document that the text is. -/
theorem exists_of_ofText {d : Decoder α} (h : Takes d Document.tokens readValue) {s : String}
    {a : α} (hs : ofText d s = .ok a) :
    ∃ document, Document.ofMended? s = some document ∧ readValue document = some a := by
  obtain ⟨front, document, hfront, hshape, hread⟩ := h.sound (ofText_eq_ok.1 hs)
  rw [List.append_nil] at hfront
  exact ⟨document, ofTokens?_eq_some_iff.2 (hfront ▸ hshape), hread⟩

/-- **A text that is a document** is read as the document is. -/
theorem ofText_eq_ok_iff {d : Decoder α} (h : Takes d Document.tokens readValue) {s : String}
    {document : Document} (hs : Document.ofText? s = some document) {a : α} :
    ofText d s = .ok a ↔ readValue document = some a := by
  constructor
  · intro htext
    obtain ⟨other, hother, hread⟩ := exists_of_ofText h htext
    obtain rfl := Option.some.inj ((ofMended?_of_ofText? hs).symm.trans hother)
    exact hread
  · intro hread
    have hrun := h.complete hread []
    rw [List.append_nil, ← ofTokens?_eq_some_iff.1 hs] at hrun
    exact ofText_eq_ok.2 hrun

end Decoder

end Json

end AggregatedRecords
