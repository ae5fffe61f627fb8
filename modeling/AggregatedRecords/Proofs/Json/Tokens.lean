import AggregatedRecords.Json.Value
import AggregatedRecords.Proofs.Json.Document
import Mathlib.Data.List.Basic
/-!
# JSON — what is written says what was meant

The document of a value is known before anything is written
(`Value.document`). Writing is then followed token by token: a text `Spells`
tokens if it is read as these whatever stands behind it, or whatever can stand
behind a number, and every piece that is written adds its own tokens to those in
front of it. So the text of a value without floating point numbers is JSON with
just this document (`Document.ofText?_render`), however it is laid out.
-/

namespace AggregatedRecords

namespace Json

/-! ## Documents of values -/

/-- The numeral of a natural number. -/
def Numeral.ofNat (n : Nat) : Numeral :=
  ⟨false, (Nat.toDigits 10 n).map fun c => c.toNat - 48, none, none⟩

mutual

/-- What a value says, where a floating point number says nothing. -/
def Value.document : Value → Document
  | .null => .null
  | .bool b => .bool b
  | .natural n => .number (.ofNat n)
  | .float _ => .null
  | .string s => .string s
  | .array items => .array (itemDocuments items)
  | .object members => .object (memberDocuments members)

/-- What items say. -/
def itemDocuments : List Value → List Document
  | [] => []
  | item :: items => item.document :: itemDocuments items

/-- What members say. -/
def memberDocuments : List (String × Value) → List (String × Document)
  | [] => []
  | (name, value) :: members => (name, value.document) :: memberDocuments members

end

mutual

/-- Whether a value has no floating point numbers in it. -/
def Value.isExact : Value → Bool
  | .null => true
  | .bool _ => true
  | .natural _ => true
  | .float _ => false
  | .string _ => true
  | .array items => areItemsExact items
  | .object members => areMembersExact members

/-- Whether no item has. -/
def areItemsExact : List Value → Bool
  | [] => true
  | item :: items => item.isExact && areItemsExact items

/-- Whether no member has. -/
def areMembersExact : List (String × Value) → Bool
  | [] => true
  | (_, value) :: members => value.isExact && areMembersExact members

end

theorem itemDocuments_eq_map (items : List Value) :
    itemDocuments items = items.map Value.document := by
  induction items with
  | nil => rfl
  | cons item items ih => rw [itemDocuments, ih, List.map_cons]

theorem memberDocuments_eq_map (members : List (String × Value)) :
    memberDocuments members = members.map fun member => (member.1, member.2.document) := by
  induction members with
  | nil => rfl
  | cons member members ih => rw [memberDocuments, ih, List.map_cons]

theorem areItemsExact_eq_all (items : List Value) :
    areItemsExact items = items.all Value.isExact := by
  induction items with
  | nil => rfl
  | cons item items ih => rw [areItemsExact, ih, List.all_cons]

theorem areMembersExact_eq_all (members : List (String × Value)) :
    areMembersExact members = members.all (·.2.isExact) := by
  induction members with
  | nil => rfl
  | cons member members ih => rw [areMembersExact, ih, List.all_cons]

namespace Numeral

theorem whole_ofNat_of_lt {n : Nat} (h : n < 10) : (ofNat n).whole = [n] := by
  simp [ofNat, Nat.toDigits_of_lt_base h, Nat.toNat_digitChar_sub_48_of_lt_ten h]

/-- The last digit comes behind the digits of a tenth. -/
theorem whole_ofNat_of_le {n : Nat} (h : 10 ≤ n) :
    (ofNat n).whole = (ofNat (n / 10)).whole ++ [n % 10] := by
  simp [ofNat, Nat.toDigits_of_base_le (by decide) h,
    Nat.toNat_digitChar_sub_48_of_lt_ten (Nat.mod_lt n (by decide))]

/-- The first digit is zero only of zero. -/
theorem eq_zero_of_head?_whole (n : Nat) (h : (ofNat n).whole.head? = some 0) : n = 0 := by
  by_cases hsmall : n < 10
  · rw [whole_ofNat_of_lt hsmall] at h
    exact Option.some.inj h
  · have hne : (ofNat (n / 10)).whole ≠ [] := by simp [ofNat]
    rw [whole_ofNat_of_le (by omega), List.head?_append_of_ne_nil _ hne] at h
    have ih := eq_zero_of_head?_whole (n / 10) h
    omega

theorem accumulate_concat {n m digit : Nat} {digits : List Nat} (h : accumulate n digits = (m, 0))
    (hfits : m * 10 + digit < UInt64.size) :
    accumulate n (digits ++ [digit]) = (m * 10 + digit, 0) := by
  fun_induction accumulate n digits with
  | case1 n =>
    cases h
    simp [accumulate, hfits]
  | case2 n first digits hfirst ih =>
    rw [List.cons_append, accumulate, if_pos hfirst]
    exact ih h
  | case3 => cases h

/-- Digits lead to their number, if it has 64 bits. -/
theorem accumulate_whole_ofNat (n : Nat) (h : n < UInt64.size) :
    accumulate 0 (ofNat n).whole = (n, 0) := by
  by_cases hsmall : n < 10
  · rw [whole_ofNat_of_lt hsmall]
    have hone : accumulate 0 ([] ++ [n]) = (0 * 10 + n, 0) := accumulate_concat rfl (by omega)
    simpa using hone
  · have ih := accumulate_whole_ofNat (n / 10) (by omega)
    have hlast := accumulate_concat ih (show n / 10 * 10 + n % 10 < UInt64.size by omega)
    rwa [← whole_ofNat_of_le (by omega), Nat.div_add_mod'] at hlast

/-- **A natural number of 64 bits is read exactly.** -/
theorem number?_ofNat {n : Nat} (h : n < UInt64.size) : (ofNat n).number? = some (.natural n) := by
  rw [number?, accumulate_whole_ofNat n h]
  rfl

end Numeral

namespace Token

/-! ## Texts that spell tokens -/

/-- **A text spells tokens** in front of anything of a kind: what stands behind
it is read from its start, behind these tokens. -/
def Spells (next : List Char → Prop) (s : String) (tokens : List Token) : Prop :=
  ∀ rest, next rest → ofTextOnto [] (s.toList ++ rest) = ofTextOnto tokens.reverse rest

/-- Any text. -/
def Anything (_ : List Char) : Prop := True

/-- A text that no number goes on with. -/
def Ends (rest : List Char) : Prop :=
  ∀ c ∈ rest.head?, (c.isDigit || c = '.' || c = 'e' || c = 'E') = false

theorem ofText_of_spells {s : String} {tokens : List Token} (h : Spells Ends s tokens) :
    ofText s = tokens := by
  have hall := h [] (by simp [Ends])
  rw [List.append_nil, ofTextOnto, List.reverse_reverse] at hall
  exact hall

theorem spells_empty : Spells Anything "" [] := fun _ _ => rfl

namespace Spells

variable {before next : List Char → Prop} {s w : String} {tokens : List Token}

/-- **One more token** is spelled by a text behind those that are. -/
theorem token {c : Char} {more : List Char} {t : Token} (h : Spells before s tokens)
    (hw : w.toList = c :: more) (hblank : isBlank c = false)
    (hbefore : ∀ rest, before (c :: rest))
    (hread : ∀ rest, next rest → read c (more ++ rest) = (t, rest)) :
    Spells next (s ++ w) (tokens ++ [t]) := by
  intro rest hrest
  rw [String.toList_append, List.append_assoc, hw, List.cons_append, h _ (hbefore _), ofTextOnto,
    if_neg (by simp [hblank]), hread rest hrest, List.reverse_append]
  rfl

/-- Blanks spell nothing. -/
theorem blanks (h : Spells before s tokens) (hw : ∀ c ∈ w.toList, isBlank c = true)
    (hbefore : ∀ rest, next rest → before (w.toList ++ rest)) : Spells next (s ++ w) tokens := by
  intro rest hrest
  rw [String.toList_append, List.append_assoc, h _ (hbefore rest hrest)]
  generalize w.toList = blanks at hw
  induction blanks with
  | nil => rfl
  | cons c blanks ih =>
    rw [List.cons_append, ofTextOnto, if_pos (hw c List.mem_cons_self)]
    exact ih fun d hd => hw d (List.mem_cons_of_mem c hd)

/-- What is spelled in front of anything is so in front of some. -/
theorem weaken (h : Spells Anything s tokens) : Spells next s tokens := fun rest _ => h rest trivial

end Spells

/-! ## Texts between quotes -/

/-- A character between quotes is a letter behind a backslash that stands for
it, or it is a control character by its number, or it stands for itself. -/
theorem escapeChar_cases (c : Char) :
    (∃ letter, escapeChar c = ['\\', letter] ∧ escaped? letter = some c) ∨
    (c.toNat < 0x20 ∧ escapeChar c =
      ['\\', 'u', '0', '0', Nat.digitChar (c.toNat / 16), Nat.digitChar (c.toNat % 16)]) ∨
    (c ≠ '"' ∧ c ≠ '\\' ∧ 0x20 ≤ c.toNat ∧ escapeChar c = [c]) := by
  by_cases hletter : ∃ letter, escapeChar c = ['\\', letter] ∧ escaped? letter = some c
  · exact Or.inl hletter
  · have hne : c ≠ '"' ∧ c ≠ '\\' ∧ c ≠ '\x08' ∧ c ≠ '\x0c' ∧ c ≠ '\n' ∧ c ≠ '\r' ∧ c ≠ '\t' := by
      refine ⟨?_, ?_, ?_, ?_, ?_, ?_, ?_⟩ <;> rintro rfl <;> exact hletter ⟨_, rfl, rfl⟩
    obtain ⟨h1, h2, h3, h4, h5, h6, h7⟩ := hne
    right
    by_cases hcontrol : c.toNat < 0x20
    · exact Or.inl ⟨hcontrol, by simp only [escapeChar, if_neg, if_pos, *, not_false_eq_true]⟩
    · exact Or.inr ⟨h1, h2, Nat.le_of_not_lt hcontrol, by
        simp only [escapeChar, if_neg, *, not_false_eq_true]⟩

theorem codeUnit?_control : ∀ n < 0x20,
    codeUnit? ['0', '0', Nat.digitChar (n / 16), Nat.digitChar (n % 16)] = some n := by
  decide

/-- **An escaped character is read as that character**, whatever follows it. -/
theorem readString_escapeChar (p : Partial) (c : Char) (rest : List Char) :
    readString p (escapeChar c ++ rest) = readString (p.push c) rest := by
  rcases escapeChar_cases c with ⟨letter, h, hletter⟩ | ⟨hcontrol, h⟩ | ⟨_, hback, hplain, h⟩
  · have hne : letter ≠ 'u' := by
      rintro rfl
      cases hletter
    rw [h]
    simp [readString, hne, hletter]
  · have hunit : p.pushUnit c.toNat = p.push c := by
      rw [Partial.pushUnit, if_neg (by omega), if_neg (by omega), Char.ofNat_toNat]
    rw [h]
    simp [readString, codeUnit?_control _ hcontrol, hunit]
  · rw [h]
    simp [readString, hback, Nat.not_lt.2 hplain]

theorem readString_flatMap (p : Partial) (cs rest : List Char) :
    readString p (cs.flatMap escapeChar ++ rest) = readString (cs.foldl Partial.push p) rest := by
  induction cs generalizing p with
  | nil => rfl
  | cons c cs ih =>
    rw [List.flatMap_cons, List.append_assoc, readString_escapeChar, ih, List.foldl_cons]

/-- A character leaves no half of a pair behind that was not there. -/
@[simp] theorem isTorn_push (p : Partial) (c : Char) : (p.push c).isTorn = p.isTorn := by
  rw [Partial.isTorn, Partial.push]
  exact Bool.or_false _

theorem close_foldl_push (p : Partial) (h : p.isTorn = false) (cs : List Char) :
    (cs.foldl Partial.push p).close =
      .string (some (String.ofList (p.reversed.reverse ++ cs))) := by
  induction cs generalizing p with
  | nil => simp [Partial.close, h]
  | cons c cs ih =>
    rw [List.foldl_cons, ih _ (by rwa [isTorn_push])]
    simp [Partial.push]

/-- **A quoted text is read as that text.** -/
theorem readString_quoted (s : String) (rest : List Char) :
    readString .empty (s.toList.flatMap escapeChar ++ '"' :: rest) = (.string (some s), rest) := by
  have hclose := close_foldl_push .empty rfl s.toList
  rw [readString_flatMap, readString, hclose]
  simp [Partial.empty]

/-- So it is spelled behind other tokens. -/
theorem Spells.quote {s : String} {tokens : List Token} (h : Spells Anything s tokens)
    (text : String) : Spells Anything (s ++ Json.quote text) (tokens ++ [.string (some text)]) := by
  have hw : (Json.quote text).toList = '"' :: (text.toList.flatMap escapeChar ++ ['"']) :=
    String.toList_ofList
  refine h.token hw (by decide) (fun _ => trivial) fun rest _ => ?_
  rw [List.append_assoc]
  exact readString_quoted text rest

/-! ## Numbers -/

/-- Digits are told from what follows them. -/
theorem span_isDigit {digits rest : List Char} (h : ∀ c ∈ digits, c.isDigit = true)
    (hrest : Ends rest) : (digits ++ rest).takeWhile Char.isDigit = digits ∧
      (digits ++ rest).dropWhile Char.isDigit = rest := by
  rw [List.takeWhile_append_of_pos h, List.dropWhile_append_of_pos h]
  match rest with
  | [] => simp
  | c :: rest =>
    have hc : c.isDigit = false := by
      have hends := hrest c rfl
      simp only [Bool.or_eq_false_iff] at hends
      exact hends.1.1.1
    simp [hc]

/-- **A natural number is read by its digits.** -/
theorem readNumber_toDigits (n : Nat) {rest : List Char} (hrest : Ends rest) :
    readNumber false (Nat.toDigits 10 n ++ rest) = (.number (.ofNat n), rest) := by
  have hdigits : ∀ c ∈ Nat.toDigits 10 n, c.isDigit = true :=
    fun c hc => Nat.isDigit_of_mem_toDigits (by decide) (by decide) hc
  obtain ⟨htake, hdrop⟩ := span_isDigit hdigits hrest
  have hwhole : digits (Nat.toDigits 10 n ++ rest) = (Numeral.ofNat n).whole := by
    rw [digits, htake]
    rfl
  have hne : (Numeral.ofNat n).whole.isEmpty = false := by simp [Numeral.ofNat]
  -- a zero in front is alone, as it is the number
  have hzero : ¬ ((Numeral.ofNat n).whole.head? = some 0 ∧ 1 < (Numeral.ofNat n).whole.length) := by
    rintro ⟨hhead, hlong⟩
    obtain rfl := Numeral.eq_zero_of_head?_whole n hhead
    simp [Numeral.ofNat] at hlong
  simp only [readNumber, hwhole, hne, afterDigits, hdrop, if_neg hzero, Bool.false_eq_true, if_false]
  -- nor does what follows go on with the number
  unfold readExponent?
  split
  · exact absurd (hrest _ rfl) (by decide)
  · split
    · exact absurd (hrest _ rfl) (by decide)
    · exact absurd (hrest _ rfl) (by decide)
    · rfl

/-- A digit is read as the number that it begins. -/
theorem read_of_isDigit {c : Char} (h : c.isDigit = true) (text : List Char) :
    read c text = readNumber false (c :: text) := by
  unfold read
  split
  case h_12 => rw [if_pos h]
  all_goals exact absurd h (by decide)

/-- So it is spelled, in front of what no number goes on with. -/
theorem Spells.natural {s : String} {tokens : List Token} (h : Spells Anything s tokens) (n : Nat) :
    Spells Ends (s ++ String.ofList (Nat.toDigits 10 n)) (tokens ++ [.number (.ofNat n)]) := by
  obtain ⟨c, more, hcons⟩ := List.exists_cons_of_ne_nil (Nat.toDigits_ne_nil (n := n) (b := 10))
  have hc : c.isDigit = true :=
    Nat.isDigit_of_mem_toDigits (by decide) (by decide) (hcons ▸ List.mem_cons_self)
  have hblank : isBlank c = false := by
    refine Bool.eq_false_iff.2 fun hblank => ?_
    simp only [isBlank, Bool.or_eq_true, decide_eq_true_eq] at hblank
    rcases hblank with ((rfl | rfl) | rfl) | rfl <;> exact absurd hc (by decide)
  refine h.token (String.toList_ofList.trans hcons) hblank (fun _ => trivial) fun rest hrest => ?_
  rw [read_of_isDigit hc, ← List.cons_append, ← hcons]
  exact readNumber_toDigits n hrest

/-! ## Between values -/

/-- A text of one character that is a token whatever follows it, and ends any
number in front of it. -/
def IsPunctuation (w : String) (t : Token) : Prop :=
  ∃ c, w.toList = [c] ∧ isBlank c = false ∧ Ends [c] ∧ ∀ rest, read c rest = (t, rest)

theorem isPunctuation_openBrace : IsPunctuation "\x7b" .openBrace :=
  ⟨'\x7b', by decide, by decide, by simp [Ends], fun _ => rfl⟩

theorem isPunctuation_closeBrace : IsPunctuation "\x7d" .closeBrace :=
  ⟨'\x7d', by decide, by decide, by simp [Ends], fun _ => rfl⟩

theorem isPunctuation_openBracket : IsPunctuation "[" .openBracket :=
  ⟨'[', by decide, by decide, by simp [Ends], fun _ => rfl⟩

theorem isPunctuation_closeBracket : IsPunctuation "]" .closeBracket :=
  ⟨']', by decide, by decide, by simp [Ends], fun _ => rfl⟩

theorem isPunctuation_colon : IsPunctuation ":" .colon :=
  ⟨':', by decide, by decide, by simp [Ends], fun _ => rfl⟩

theorem isPunctuation_comma : IsPunctuation "," .comma :=
  ⟨',', by decide, by decide, by simp [Ends], fun _ => rfl⟩

namespace Spells

variable {s w : String} {tokens : List Token} {t : Token}

theorem punctuation (h : Spells Ends s tokens) (hw : IsPunctuation w t) :
    Spells Anything (s ++ w) (tokens ++ [t]) := by
  obtain ⟨c, hc, hblank, hends, hread⟩ := hw
  exact h.token hc hblank (fun _ => hends) fun rest _ => hread rest

/-- A word is a token whatever follows it. -/
theorem word (h : Spells Anything s tokens) (c : Char) (letters : List Char)
    (hw : w.toList = c :: letters) (hblank : isBlank c = false)
    (hread : ∀ rest, read c rest = readWord t letters rest) :
    Spells Ends (s ++ w) (tokens ++ [t]) := by
  refine h.token hw hblank (fun _ => trivial) fun rest _ => ?_
  rw [hread]
  clear hw hread
  induction letters with
  | nil => rfl
  | cons letter letters ih => simpa [readWord] using ih

theorem isBlank_of_mem_lineBreak {layout : Layout} {depth : Nat} {c : Char}
    (h : c ∈ (layout.lineBreak depth).toList) : isBlank c = true := by
  cases layout with
  | compact => simp [Layout.lineBreak] at h
  | indented =>
    simp only [Layout.lineBreak, String.toList_ofList, List.mem_cons, List.mem_replicate] at h
    rcases h with rfl | ⟨-, rfl⟩ <;> rfl

/-- A line break may stand behind anything. -/
theorem lineBreak (h : Spells Anything s tokens) (layout : Layout) (depth : Nat) :
    Spells Anything (s ++ layout.lineBreak depth) tokens :=
  h.blanks (fun _ => isBlank_of_mem_lineBreak) fun _ _ => trivial

/-- A line break ends a number, and what ends one may follow instead. -/
theorem lineBreak_ends (h : Spells Ends s tokens) (layout : Layout) (depth : Nat) :
    Spells Ends (s ++ layout.lineBreak depth) tokens := by
  refine h.blanks (fun _ => isBlank_of_mem_lineBreak) fun rest hrest => ?_
  cases layout with
  | compact => simpa [Layout.lineBreak] using hrest
  | indented => simp [Layout.lineBreak, Ends]

/-- A name is spelled with its colon. -/
theorem name (h : Spells Anything s tokens) (name : String) (layout : Layout) :
    Spells Anything (s ++ Json.quote name ++ layout.colon)
      (tokens ++ [.string (some name), .colon]) := by
  have hcolon := (h.quote name).weaken.punctuation isPunctuation_colon
  rw [List.append_assoc] at hcolon
  cases layout with
  | compact => exact hcolon
  | indented =>
    have hblank : Spells Anything (s ++ Json.quote name ++ ":" ++ " ") _ :=
      hcolon.blanks (by simp [isBlank]) fun _ _ => trivial
    rwa [String.append_assoc] at hblank

end Spells

/-! ## Values -/

mutual

/-- **A value that is written spells what it says.** -/
theorem spells_write (layout : Layout) (depth : Nat) {out : String} {tokens : List Token}
    (h : Spells Anything out tokens) : (v : Value) → v.isExact = true →
      Spells Ends (v.write layout depth out) (tokens ++ v.document.tokens)
  | .null, _ => h.word 'n' ['u', 'l', 'l'] (by decide) (by decide) fun _ => rfl
  | .bool true, _ => h.word 't' ['r', 'u', 'e'] (by decide) (by decide) fun _ => rfl
  | .bool false, _ => h.word 'f' ['a', 'l', 's', 'e'] (by decide) (by decide) fun _ => rfl
  | .natural n, _ => h.natural n
  | .float x, hexact => by cases hexact
  | .string s, _ => (h.quote s).weaken
  | .array [], _ => by
    have hopen := h.weaken.punctuation isPunctuation_openBracket
    have hclose := hopen.weaken.punctuation isPunctuation_closeBracket
    rw [String.append_assoc, List.append_assoc] at hclose
    exact hclose.weaken
  | .array (item :: items), hexact => by
    simp only [Value.isExact, areItemsExact, Bool.and_eq_true] at hexact
    have hopen := (h.weaken.punctuation isPunctuation_openBracket).lineBreak layout (depth + 1)
    have hfirst := spells_write layout (depth + 1) hopen item hexact.1
    have hmore := spells_writeItems layout (depth + 1) hfirst items hexact.2
    have hclose := (hmore.lineBreak_ends layout depth).punctuation isPunctuation_closeBracket
    simp only [Value.write, Value.document, Document.tokens, Document.itemTokens, itemDocuments]
    simpa using hclose.weaken
  | .object [], _ => by
    have hopen := h.weaken.punctuation isPunctuation_openBrace
    have hclose := hopen.weaken.punctuation isPunctuation_closeBrace
    rw [String.append_assoc, List.append_assoc] at hclose
    exact hclose.weaken
  | .object ((name, value) :: members), hexact => by
    simp only [Value.isExact, areMembersExact, Bool.and_eq_true] at hexact
    have hopen := (h.weaken.punctuation isPunctuation_openBrace).lineBreak layout (depth + 1)
    have hfirst := spells_write layout (depth + 1) (hopen.name name layout) value hexact.1
    have hmore := spells_writeMembers layout (depth + 1) hfirst members hexact.2
    have hclose := (hmore.lineBreak_ends layout depth).punctuation isPunctuation_closeBrace
    simp only [Value.write, Value.document, Document.tokens, Document.memberTokens, memberDocuments]
    simpa using hclose.weaken

/-- And so do items behind others. -/
theorem spells_writeItems (layout : Layout) (depth : Nat) {out : String} {tokens : List Token}
    (h : Spells Ends out tokens) : (items : List Value) → areItemsExact items = true →
      Spells Ends (writeItems layout depth out items)
        (tokens ++ Document.moreItemTokens (itemDocuments items))
  | [], _ => by simpa [writeItems, itemDocuments, Document.moreItemTokens] using h
  | item :: items, hexact => by
    simp only [areItemsExact, Bool.and_eq_true] at hexact
    have hcomma := (h.punctuation isPunctuation_comma).lineBreak layout depth
    have hitem := spells_write layout depth hcomma item hexact.1
    have hmore := spells_writeItems layout depth hitem items hexact.2
    simp only [writeItems, itemDocuments, Document.moreItemTokens]
    simpa using hmore

/-- And members. -/
theorem spells_writeMembers (layout : Layout) (depth : Nat) {out : String} {tokens : List Token}
    (h : Spells Ends out tokens) : (members : List (String × Value)) →
      areMembersExact members = true → Spells Ends (writeMembers layout depth out members)
        (tokens ++ Document.moreMemberTokens (memberDocuments members))
  | [], _ => by simpa [writeMembers, memberDocuments, Document.moreMemberTokens] using h
  | (name, value) :: members, hexact => by
    simp only [areMembersExact, Bool.and_eq_true] at hexact
    have hcomma := (h.punctuation isPunctuation_comma).lineBreak layout depth
    have hvalue := spells_write layout depth (hcomma.name name layout) value hexact.1
    have hmore := spells_writeMembers layout depth hvalue members hexact.2
    simp only [writeMembers, memberDocuments, Document.moreMemberTokens]
    simpa using hmore

end

/-- **The tokens of a value that is written** are those of what it says. -/
theorem ofText_render (layout : Layout) {v : Value} (h : v.isExact = true) :
    ofText (v.render layout) = v.document.tokens :=
  ofText_of_spells (spells_write layout 0 spells_empty v h)

end Token

/-- **What is written is JSON**, in either layout, and says what was meant. -/
theorem Document.ofText?_render (layout : Layout) {v : Value} (h : v.isExact = true) :
    Document.ofText? (v.render layout) = some v.document := by
  rw [ofText?, ofTokens?_eq_some_iff, Token.ofText_render layout h]

end Json

end AggregatedRecords
