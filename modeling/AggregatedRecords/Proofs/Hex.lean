import AggregatedRecords.Proofs.Bytes
import AggregatedRecords.Proofs.Text.Blank
import AggregatedRecords.Settings.Basic
import Mathlib.Tactic.SplitIfs
/-!
# Hex — what the loose form may look like

A text denotes octets when it is blanks, a base mark or none, digits of either
case with separators in any places, and blanks again (`Hex.Denotes`). A blank may
be a separator as well, and the two digits of an octet may be apart, so a text
is cut into these parts in more than one way; but the digits in it are the same
whichever way it is cut. Exactly the texts that denote octets are read as them
(`ofText_eq_ok_iff`), so what is written may be respelled
(`Respells`), and settings are usable exactly when their magic denotes at
least one octet.
-/

namespace AggregatedRecords

namespace Hex

/-! ## The form -/

/-- The digits by their values, in lower case. -/
def lowerDigits : List Char := "0123456789abcdef".toList

/-- The digits by their values, in upper case. -/
def upperDigits : List Char := "0123456789ABCDEF".toList

/-- A character is the digit of a value in one of the cases. -/
def IsDigit (c : Char) (n : Nat) : Prop := lowerDigits[n]? = some c ∨ upperDigits[n]? = some c

/-- **Digits with separators in any places**, and the values of the digits in
order. -/
inductive Spells : List Char → List Nat → Prop
  | nil : Spells [] []
  /-- A separator has no value. -/
  | separator {c : Char} {s : List Char} {values : List Nat} :
      c ∈ [':', '_', ' '] → Spells s values → Spells (c :: s) values
  /-- A digit has its value. -/
  | digit {c : Char} {n : Nat} {s : List Char} {values : List Nat} :
      IsDigit c n → Spells s values → Spells (c :: s) (n :: values)

/-- The values of the two digits of each octet. -/
def nibbles (b : Bytes) : List Nat := b.flatMap fun x => [x.toNat / 16, x.toNat % 16]

/-- What may stand in front of the digits. -/
def marks : List (List Char) := [[], ['0', 'x'], ['0', 'X']]

/-- **A text denotes octets**: there are blanks around it, there may be a mark in
front, and the digits are those of the octets. -/
def Denotes (text : List Char) (b : Bytes) : Prop :=
  ∃ front mark body behind, text = front ++ (mark ++ body ++ behind) ∧
    (∀ c ∈ front, Text.isBlank c = true) ∧ mark ∈ marks ∧ Spells body (nibbles b) ∧
    ∀ c ∈ behind, Text.isBlank c = true

/-- **A text respells another**: letters may have the other case, and separators
may be put in. -/
inductive Respells : List Char → List Char → Prop
  | nil : Respells [] []
  /-- A separator is put in. -/
  | separator {c : Char} {s t : List Char} :
      c ∈ [':', '_', ' '] → Respells s t → Respells s (c :: t)
  /-- A character stays the same but for its case. -/
  | character {c d : Char} {s t : List Char} :
      d.toLower = c.toLower → Respells s t → Respells (c :: s) (d :: t)

variable {c d : Char} {n : Nat} {s t : List Char} {values : List Nat} {b : Bytes}

/-! ## Digits -/

/-- The digits and their values are three runs of characters. -/
theorem valueOf?_eq_some_iff : valueOf? c = some n ↔
    (n < 10 ∧ c.toNat = 48 + n) ∨
      (10 ≤ n ∧ n < 16 ∧ (c.toNat = 87 + n ∨ c.toNat = 55 + n)) := by
  unfold valueOf?
  split
  · next hlt =>
    have hcode : (UInt8.ofNat c.toNat).toNat = c.toNat :=
      UInt8.toNat_ofNat_of_lt' (Nat.lt_trans hlt (by decide))
    simp only [value?, hcode, Bool.and_eq_true, decide_eq_true_eq]
    split_ifs <;> simp only [Option.some.injEq, false_iff] <;> omega
  · simp only [reduceCtorEq, false_iff]
    omega

/-- **A digit is a character that has its value.** -/
theorem isDigit_iff : IsDigit c n ↔ valueOf? c = some n := by
  have hcode (digits : List Char) :
      digits[n]? = some c ↔ (digits.map Char.toNat)[n]? = some c.toNat := by
    rw [List.getElem?_map, ← Option.map_some,
      Option.map_inj_right fun _ _ => Char.toNat_inj.1]
  rw [IsDigit, hcode, hcode, valueOf?_eq_some_iff]
  by_cases hn : n < 16
  · have hlower : ∀ n < 16, (lowerDigits.map Char.toNat)[n]? =
        some (if n < 10 then 48 + n else 87 + n) := by decide
    have hupper : ∀ n < 16, (upperDigits.map Char.toNat)[n]? =
        some (if n < 10 then 48 + n else 55 + n) := by decide
    rw [hlower n hn, hupper n hn, Option.some.injEq, Option.some.injEq]
    split_ifs <;> omega
  · have hnone (digits : List Char) (hlength : digits.length = 16) :
        (digits.map Char.toNat)[n]? = none :=
      List.getElem?_eq_none (by rw [List.length_map]; omega)
    simp only [hnone lowerDigits rfl, hnone upperDigits rfl, reduceCtorEq, false_or, false_iff]
    omega

theorem toNat_toLower (c : Char) :
    c.toLower.toNat = if 65 ≤ c.toNat ∧ c.toNat ≤ 90 then c.toNat + 32 else c.toNat := by
  unfold Char.toLower
  split
  · next h =>
    simp only [ge_iff_le, UInt32.le_iff_toNat_le] at h
    have hcode : 65 ≤ c.toNat ∧ c.toNat ≤ 90 := h
    rw [if_pos hcode]
    change (c.val + 32).toNat = _
    rw [UInt32.toNat_add]
    change (c.toNat + 32) % _ = _
    omega
  · next h =>
    simp only [ge_iff_le, UInt32.le_iff_toNat_le] at h
    exact (if_neg h).symm

/-- The case of a character makes no difference to its value. -/
theorem valueOf?_toLower (c : Char) : valueOf? c.toLower = valueOf? c := by
  refine Option.ext fun n => ?_
  rw [valueOf?_eq_some_iff, valueOf?_eq_some_iff, toNat_toLower]
  split <;> omega

/-- A separator is no digit. -/
theorem valueOf?_of_separator (h : c ∈ [':', '_', ' ']) : valueOf? c = none := by
  simp only [List.mem_cons, List.not_mem_nil, or_false] at h
  obtain rfl | rfl | rfl := h <;> decide

theorem isSeparator_iff : isSeparator c = true ↔ c ∈ [':', '_', ' '] := by
  simp [isSeparator, or_comm, or_left_comm, or_assoc]

/-! ## Digits with separators -/

/-- **The digits are what is left without the separators.** -/
theorem spells_iff : Spells s values ↔
    (s.filter fun c => !isSeparator c).map valueOf? = values.map some := by
  constructor
  · intro h
    induction h with
    | nil => rfl
    | separator hc _ ih =>
      rw [List.filter_cons_of_neg (by simp [isSeparator_iff.2 hc]), ih]
    | @digit c n s values hc _ ih =>
      rw [isDigit_iff] at hc
      have hkept : isSeparator c = false := by
        refine Bool.eq_false_iff.2 fun hsep => ?_
        rw [valueOf?_of_separator (isSeparator_iff.1 hsep)] at hc
        cases hc
      rw [List.filter_cons_of_pos (by simp [hkept]), List.map_cons, ih, hc, List.map_cons]
  · intro h
    induction s generalizing values with
    | nil =>
      obtain rfl := List.map_eq_nil_iff.1 h.symm
      exact .nil
    | cons c s ih =>
      by_cases hsep : isSeparator c = true
      · rw [List.filter_cons_of_neg (by simp [hsep])] at h
        exact .separator (isSeparator_iff.1 hsep) (ih h)
      · rw [List.filter_cons_of_pos (by simp [hsep]), List.map_cons] at h
        cases values with
        | nil => cases h
        | cons n values =>
          rw [List.map_cons, List.cons.injEq] at h
          exact .digit (isDigit_iff.2 h.1) (ih h.2)

/-- A character of a spelling is a separator or a digit. -/
theorem Spells.of_mem (h : Spells s values) (hc : c ∈ s) :
    c ∈ [':', '_', ' '] ∨ ∃ n, valueOf? c = some n := by
  induction h with
  | nil => cases hc
  | separator hd _ ih =>
    obtain rfl | hc := List.mem_cons.1 hc
    · exact .inl hd
    · exact ih hc
  | digit hd _ ih =>
    obtain rfl | hc := List.mem_cons.1 hc
    · exact .inr ⟨_, isDigit_iff.1 hd⟩
    · exact ih hc

/-- No digit is blank, so blanks in a spelling are passed over as separators. -/
theorem Spells.passes_blanks (h : Spells s values) :
    ∀ c ∈ s, Text.isBlank c = true → (!isSeparator c) = false := by
  intro c hc hblank
  rw [Bool.not_eq_false']
  obtain hsep | ⟨n, hn⟩ := h.of_mem hc
  · exact isSeparator_iff.2 hsep
  · have hcode := valueOf?_eq_some_iff.1 hn
    simp only [Text.isBlank, Text.isWithin, Text.blankRanges, List.any_cons, List.any_nil,
      Bool.or_eq_true, Bool.and_eq_true, decide_eq_true_eq, Bool.false_eq_true, or_false] at hblank
    omega

/-- **Blanks at the ends of a spelling** make no difference to it. -/
theorem Spells.rdropWhile (h : Spells s values) : Spells (s.rdropWhile Text.isBlank) values := by
  rw [spells_iff, Text.filter_rdropWhile_isBlank h.passes_blanks]
  exact spells_iff.1 h

theorem Spells.trim (h : Spells s values) : Spells (Text.trim s) values := by
  rw [spells_iff, Text.filter_trim h.passes_blanks]
  exact spells_iff.1 h

/-- No mark is part of a spelling. -/
theorem Spells.withoutMark_eq (h : Spells s values) : withoutMark s = s := by
  have hnot {c : Char} (hsep : c ∉ [':', '_', ' ']) (hvalue : valueOf? c = none) : c ∉ s := by
    intro hc
    obtain hmem | ⟨n, hn⟩ := h.of_mem hc
    · exact hsep hmem
    · simp [hvalue] at hn
  unfold withoutMark
  split
  · exact absurd (List.mem_cons_of_mem _ List.mem_cons_self)
      (hnot (c := 'x') (by decide) (by decide))
  · exact absurd (List.mem_cons_of_mem _ List.mem_cons_self)
      (hnot (c := 'X') (by decide) (by decide))
  · rfl

/-- A mark that is in front is taken away. -/
theorem exists_mark (s : List Char) : ∃ mark ∈ marks, s = mark ++ withoutMark s := by
  unfold withoutMark
  split
  · exact ⟨['0', 'x'], by decide, rfl⟩
  · exact ⟨['0', 'X'], by decide, rfl⟩
  · exact ⟨[], by decide, rfl⟩

/-- **What is left without blanks and mark** is a spelling exactly where the text
has the loose form. -/
theorem denotes_iff : Denotes s b ↔ Spells (withoutMark (Text.trim s)) (nibbles b) := by
  constructor
  · rintro ⟨front, mark, body, behind, rfl, hfront, hmark, hbody, hbehind⟩
    rw [← List.append_assoc, Text.trim_blanks hfront hbehind]
    simp only [marks, List.mem_cons, List.not_mem_nil, or_false] at hmark
    -- with a mark in front blanks are taken from the end only
    have hmarked (x : Char) (hx : Text.isBlank x = false) :
        Text.trim (['0', x] ++ body) = '0' :: x :: body.rdropWhile Text.isBlank := by
      refine Text.trim_append (by simp) (fun c hc => ?_) body
      simp only [List.mem_cons, List.not_mem_nil, or_false] at hc
      obtain rfl | rfl := hc
      · decide
      · exact hx
    obtain rfl | rfl | rfl := hmark
    · have htrim := hbody.trim
      rwa [List.nil_append, htrim.withoutMark_eq]
    · rw [hmarked 'x' (by decide)]
      exact hbody.rdropWhile
    · rw [hmarked 'X' (by decide)]
      exact hbody.rdropWhile
  · intro h
    obtain ⟨front, behind, hs, hfront, hbehind⟩ := Text.exists_trim s
    obtain ⟨mark, hmark, htrim⟩ := exists_mark (Text.trim s)
    refine ⟨front, mark, _, behind, ?_, hfront, hmark, h, hbehind⟩
    rwa [← htrim]

/-! ## Octets of digits -/

theorem nibbles_cons (x : UInt8) (b : Bytes) :
    nibbles (x :: b) = x.toNat / 16 :: x.toNat % 16 :: nibbles b := rfl

theorem length_nibbles (b : Bytes) : (nibbles b).length = 2 * b.length := by
  simp [nibbles, Nat.mul_comm]

theorem toNat_octetOf {m n : Nat} (hm : m < 16) (hn : n < 16) :
    (octetOf [m, n]).toNat = m * 16 + n := by
  have hlt : (0 * 16 + m) * 16 + n < UInt8.size := by
    change _ < 256
    omega
  change (UInt8.ofNat ((0 * 16 + m) * 16 + n)).toNat = _
  rw [UInt8.toNat_ofNat_of_lt' hlt]
  omega

/-- The groups of two are read off in front. -/
theorem groupsOf_two_cons (m n : Nat) (values : List Nat) :
    groupsOf 2 (m :: n :: values) = [m, n] :: groupsOf 2 values :=
  groupsOf_append (x := [m, n]) (by simp) values

/-- **Digits of octets** are read as these octets. -/
theorem map_octetOf_nibbles (b : Bytes) : (groupsOf 2 (nibbles b)).map octetOf = b := by
  induction b with
  | nil => simp [nibbles]
  | cons x b ih =>
    have hx := x.toNat_lt
    have hoctet : octetOf [x.toNat / 16, x.toNat % 16] = x := by
      refine UInt8.toNat_inj.1 ?_
      rw [toNat_octetOf (by omega) (by omega)]
      omega
    rw [nibbles_cons, groupsOf_two_cons, List.map_cons, ih, hoctet]

/-- **Digits in pairs** are those of the octets they are read as. -/
theorem nibbles_map_octetOf : ∀ {values : List Nat}, values.length % 2 ≠ 1 →
    (∀ n ∈ values, n < 16) → nibbles ((groupsOf 2 values).map octetOf) = values
  | [], _, _ => by simp [nibbles]
  | [_], heven, _ => absurd rfl heven
  | m :: n :: values, heven, hlt => by
    have hm : m < 16 := hlt m (by simp)
    have hn : n < 16 := hlt n (by simp)
    have ih : nibbles ((groupsOf 2 values).map octetOf) = values := by
      refine nibbles_map_octetOf ?_ fun k hk => hlt k (by simp [hk])
      simp only [List.length_cons] at heven
      omega
    rw [groupsOf_two_cons, List.map_cons, nibbles_cons, ih, toNat_octetOf hm hn]
    congr 1
    · omega
    · congr 1
      omega

theorem value?_lt {x : UInt8} (h : value? x = some n) : n < 16 := by
  unfold value? at h
  simp only [Bool.and_eq_true, decide_eq_true_eq] at h
  split_ifs at h <;> · have := Option.some.inj h; omega

/-- **Octets are read from digits** exactly when the values of the digits are
those of the octets. -/
theorem decode_eq_ok_iff {digits : Bytes} :
    decode digits = .ok b ↔ digits.map value? = (nibbles b).map some := by
  unfold decode
  constructor
  · intro h
    split_ifs at h with hodd
    split at h
    · cases h
    next hinside =>
      obtain rfl := Except.ok.inj h
      rw [Bytes.firstOutside_eq_none] at hinside
      have hvalues : digits.map value? = (digits.filterMap value?).map some := by
        rw [List.map_filterMap, ← List.filterMap_eq_map]
        refine List.filterMap_congr fun x hx => ?_
        obtain ⟨n, hn⟩ := Option.isSome_iff_exists.1 (hinside x hx)
        rw [Function.comp, hn, Option.map_some]
      have hlength := congrArg List.length hvalues
      rw [List.length_map, List.length_map] at hlength
      rw [nibbles_map_octetOf (by rwa [← hlength]), hvalues]
      intro n hn
      obtain ⟨x, -, hx⟩ := List.mem_filterMap.1 hn
      exact value?_lt hx
  · intro h
    have hlength := congrArg List.length h
    rw [List.length_map, List.length_map, length_nibbles] at hlength
    have hinside : digits.firstOutside (fun x => (value? x).isSome) = none := by
      refine Bytes.firstOutside_eq_none.2 fun x hx => ?_
      have hmem : value? x ∈ (nibbles b).map some := h ▸ List.mem_map_of_mem hx
      obtain ⟨n, -, hn⟩ := List.mem_map.1 hmem
      exact hn ▸ rfl
    have hvalues : digits.filterMap value? = nibbles b := by
      have hread := congrArg (List.filterMap id) h
      simpa only [List.filterMap_map, Function.id_comp, Function.comp_def, List.filterMap_some,
        id] using hread
    rw [if_neg (by omega), hinside, hvalues, map_octetOf_nibbles]

/-- The octets of characters are digits exactly when the characters are. -/
theorem map_value?_ofString :
    (Bytes.ofString (String.ofList s)).map value? = values.map some ↔
      s.map valueOf? = values.map some := by
  rw [Bytes.ofString_ofList]
  induction s generalizing values with
  | nil => rfl
  | cons c s ih =>
    by_cases hc : c.toNat < 128
    · have hoctet := Bytes.utf8EncodeChar_ofNat hc
      have hvalue : valueOf? c = value? (UInt8.ofNat c.toNat) := if_pos hc
      rw [Char.ofNat_toNat] at hoctet
      rw [List.flatMap_cons, hoctet, List.singleton_append, List.map_cons, List.map_cons, hvalue]
      cases values with
      | nil => simp
      | cons n values => rw [List.map_cons, List.cons.injEq, List.cons.injEq, ih]
    · -- neither the character nor the first of its octets is a digit
      obtain ⟨x, rest, hoctets, hx⟩ := Bytes.exists_utf8EncodeChar (Nat.le_of_not_lt hc)
      have hnone : value? x = none := by
        simp only [value?, Bool.and_eq_true, decide_eq_true_eq]
        split_ifs <;> first | rfl | omega
      have hvalue : valueOf? c = none := if_neg hc
      rw [List.flatMap_cons, hoctets, List.cons_append, List.map_cons, List.map_cons, hnone, hvalue]
      cases values <;> simp

/-- **A text is read as octets** exactly when it denotes them. -/
theorem ofText_eq_ok_iff {text : String} : ofText text = .ok b ↔ Denotes text.toList b := by
  rw [ofText, decode_eq_ok_iff, map_value?_ofString, denotes_iff, spells_iff]

/-! ## What is written -/

/-- The digits that are written are those of the octets. -/
theorem spells_flatMap_pair (b : Bytes) : Spells (b.flatMap pair) (nibbles b) := by
  have hdigit : ∀ n < 16, IsDigit (digit n) n := by
    unfold IsDigit
    decide
  induction b with
  | nil => exact .nil
  | cons x b ih =>
    have hx := x.toNat_lt
    rw [List.flatMap_cons, nibbles_cons]
    exact .digit (hdigit _ (by omega)) (.digit (hdigit _ (by omega)) ih)

/-- A separator has no case. -/
theorem eq_of_toLower_eq (hc : c ∈ [':', '_', ' ']) (h : d.toLower = c.toLower) : d = c := by
  have hcodes : c.toNat = 58 ∨ c.toNat = 95 ∨ c.toNat = 32 := by
    simp only [List.mem_cons, List.not_mem_nil, or_false] at hc
    obtain rfl | rfl | rfl := hc <;> decide
  have hcode := congrArg Char.toNat h
  rw [toNat_toLower, toNat_toLower] at hcode
  refine Char.toNat_inj.1 ?_
  split_ifs at hcode <;> omega

/-- **Respelling** keeps the values. -/
theorem Respells.spells (h : Respells s t) (hs : Spells s values) : Spells t values := by
  induction h generalizing values with
  | nil => exact hs
  | separator hc _ ih => exact .separator hc (ih hs)
  | @character c d s t hcase _ ih =>
    cases hs with
    | separator hc hs =>
      obtain rfl := eq_of_toLower_eq hc hcase
      exact .separator hc (ih hs)
    | digit hc hs =>
      have hvalue : valueOf? d = valueOf? c := by
        rw [← valueOf?_toLower, hcase, valueOf?_toLower]
      rw [isDigit_iff, ← hvalue, ← isDigit_iff] at hc
      exact .digit hc (ih hs)

/-- **A respelling of what is written is read back**, behind a mark or none. -/
theorem ofText_of_respells (hb : b ≠ []) {mark text : String} (hmark : mark ∈ ["", "0x", "0X"])
    (h : Respells (shown b).toList text.toList) : ofText (mark ++ text) = .ok b := by
  have hshown : (shown b).toList = b.flatMap pair := by
    rw [shown, if_neg (by simpa using hb), encode, String.toList_ofList]
  have hmarks : mark.toList ∈ marks := by
    simp only [List.mem_cons, List.not_mem_nil, or_false] at hmark
    obtain rfl | rfl | rfl := hmark <;> decide
  have hspells : Spells text.toList (nibbles b) := h.spells (hshown ▸ spells_flatMap_pair b)
  refine ofText_eq_ok_iff.2
    ⟨[], mark.toList, text.toList, [], ?_, by simp, hmarks, hspells, by simp⟩
  rw [String.toList_append, List.append_nil, List.nil_append]

/-- Settings are usable when their magic is read as at least one octet. -/
theorem frameFormat_eq_ok_iff {settings : Settings} {format : FrameFormat} :
    settings.frameFormat = .ok format ↔
      ofText settings.magic = .ok format.magic ∧ format.magic ≠ [] ∧
        format.algorithm = settings.digest := by
  obtain ⟨magic, algorithm⟩ := format
  rw [Settings.frameFormat]
  split
  · next hread => simp [hread]
  · next octets hread =>
    rw [hread, Except.ok.injEq]
    by_cases hempty : octets = []
    · subst hempty
      simp +contextual [eq_comm]
    · rw [if_neg (by simpa using hempty), Except.ok.injEq, FrameFormat.mk.injEq]
      constructor
      · rintro ⟨rfl, rfl⟩
        exact ⟨rfl, hempty, rfl⟩
      · rintro ⟨rfl, -, rfl⟩
        exact ⟨rfl, rfl⟩

/-- **Exactly what denotes octets is read as them.** So what is written of octets
is read back with a mark or none, in either case and with separators put in; and
settings are usable exactly when their magic denotes at least one octet, which
then is the magic of the envelope. -/
theorem ofText_exactly_denotes :
    (∀ text b, ofText text = .ok b ↔ Denotes text.toList b) ∧
      (∀ b, b ≠ [] → ∀ mark ∈ ["", "0x", "0X"], ∀ text : String,
        Respells (shown b).toList text.toList → ofText (mark ++ text) = .ok b) ∧
      ∀ (settings : Settings) (format : FrameFormat),
        settings.frameFormat = .ok format ↔
          Denotes settings.magic.toList format.magic ∧ format.magic ≠ [] ∧
            format.algorithm = settings.digest := by
  refine ⟨fun _ _ => ofText_eq_ok_iff, fun b hb mark hmark text => ofText_of_respells hb hmark,
    fun settings format => ?_⟩
  rw [frameFormat_eq_ok_iff, ofText_eq_ok_iff]

/-- So the standard magic is read back with a mark, in both cases, and with an
octet whose digits are apart. -/
theorem ofText_exactly_denotes_standardMagic :
    ofText ("0X" ++ "F3:89_9a c 2") = .ok FrameFormat.standardMagic := by
  obtain ⟨-, hread, -⟩ := ofText_exactly_denotes
  have hshown : (shown FrameFormat.standardMagic).toList =
      ['f', '3', '8', '9', '9', 'a', 'c', '2'] := by decide
  have hrespells : Respells ['f', '3', '8', '9', '9', 'a', 'c', '2'] "F3:89_9a c 2".toList :=
    .character (by decide) <| .character rfl <| .separator (by decide) <|
      .character rfl <| .character rfl <| .separator (by decide) <|
        .character rfl <| .character rfl <| .separator (by decide) <|
          .character rfl <| .separator (by decide) <| .character rfl .nil
  exact hread _ (by decide) "0X" (by decide) _ (hshown ▸ hrespells)

end Hex

end AggregatedRecords
