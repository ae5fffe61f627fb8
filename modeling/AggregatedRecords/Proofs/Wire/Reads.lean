import AggregatedRecords.Wire.Message
/-!
# Wire — what is written is read back

`Reads` says of a reader that it takes exactly some octets off the front,
whatever follows them. It is closed under sequencing (`Reads.bind`), so a
field is read back once its key and its value are, and none of its laws
mentions an offset.

A message stops where it is told to, so its fields need a form of their own:
`Folds` takes a message through octets up to the point where it stops, one
field after the other (`Folds.field`, `Folds.repeated`). An embedded message is
then a value like any other (`reads_readEmbedded`).
-/

namespace AggregatedRecords

namespace Wire

variable {α β : Type}

/-- **A reader takes exactly these octets**, whatever follows them, and gives
the value. -/
def Reads (r : Reader α) (b : Bytes) (a : α) : Prop :=
  ∀ rest : Bytes, r.run (.ofBytes (b ++ rest)) = .ok (a, .ofBytes rest)

/-- Giving a value takes nothing. -/
theorem reads_pure (a : α) : Reads (pure a) [] a := fun _ => rfl

namespace Reads

/-- **Readers in sequence take their octets in sequence.** -/
theorem bind {first : Reader α} {next : α → Reader β} {b c : Bytes} {a : α} {d : β}
    (hfirst : Reads first b a) (hnext : Reads (next a) c d) :
    Reads (first >>= next) (b ++ c) d := by
  intro rest
  rw [List.append_assoc, Consumer.run_bind_of_ok (hfirst (c ++ rest))]
  exact hnext rest

/-- A value that is only passed on takes no more. -/
theorem map {r : Reader α} {b : Bytes} {a : α} (f : α → β) (h : Reads r b a) :
    Reads (r >>= fun x => pure (f x)) b (f a) := by
  intro rest
  rw [Consumer.run_bind_of_ok (h rest)]
  exact reads_pure (f a) rest

theorem within {r : Reader α} {b : Bytes} {a : α} (member : Member) (h : Reads r b a) :
    Reads (r.within member) b a := fun rest => Reader.run_within_eq_ok_iff.2 (h rest)

end Reads

/-- What is left behind octets that were there. -/
theorem drop_ofBytes (b rest : Bytes) :
    (Unread.ofBytes (b ++ rest)).drop b.length = .ofBytes rest :=
  Unread.eq_of_octets (by simp)

theorem reads_octet (x : UInt8) : Reads Reader.octet [x] x := by
  intro rest
  change Except.ok (x, (Unread.ofBytes ([x] ++ rest)).drop [x].length) = _
  rw [drop_ofBytes]

theorem reads_take (b : Bytes) : Reads (Reader.take b.length) b b := by
  intro rest
  have hsize : ¬ (Unread.ofBytes (b ++ rest)).size < b.length := by simp [Unread.ofBytes]
  simp only [Reader.take, if_neg hsize, drop_ofBytes]
  simp

/-! ## Varints -/

/-- A number of seven bits is read back from one octet, of which the last
possible one holds a single bit. -/
theorem reads_readGroups_of_lt {groups n : Nat} (hn : n < 128) (hlast : groups = 0 → n ≤ 1) :
    Reads (Varint.readGroups (groups + 1)) [UInt8.ofNat n] n := by
  have hx : (UInt8.ofNat n).toNat = n := UInt8.toNat_ofNat_of_lt' (Nat.lt_trans hn (by decide))
  have hlt : UInt8.ofNat n < 128 := by rwa [UInt8.lt_iff_toNat_lt, hx]
  have hle : ¬ (groups = 0 ∧ 1 < UInt8.ofNat n) := by
    rw [UInt8.lt_iff_toNat_lt, hx]
    rintro ⟨hzero, hone⟩
    exact absurd (hlast hzero) (Nat.not_le.2 hone)
  intro rest
  rw [Varint.readGroups, Consumer.run_bind_of_ok (reads_octet _ rest), if_pos hlt, if_neg hle, hx]
  rfl

/-- A number is read back by as many octets as its bits ask for: no more than
one is left after the groups before the last. -/
theorem reads_readGroups : ∀ (groups n : Nat), n >>> (7 * groups) < 2 →
    Reads (Varint.readGroups (groups + 1)) (Varint.encode n) n := by
  intro groups
  induction groups with
  | zero =>
    intro n hn
    have hn2 : n < 2 := hn
    rw [Varint.encode, if_pos (by omega)]
    exact reads_readGroups_of_lt (by omega) (fun _ => by omega)
  | succ groups ih =>
    intro n hn
    by_cases hsmall : n < 128
    · rw [Varint.encode, if_pos hsmall]
      exact reads_readGroups_of_lt hsmall (fun h => by omega)
    · -- the first octet holds seven bits, and the others are those of the bits above
      have hx : (UInt8.ofNat (n % 128 + 128)).toNat = n % 128 + 128 :=
        UInt8.toNat_ofNat_of_lt' (show n % 128 + 128 < 256 by omega)
      have hge : ¬ UInt8.ofNat (n % 128 + 128) < 128 := by
        rw [UInt8.lt_iff_toNat_lt, hx]
        exact Nat.not_lt.2 (Nat.le_add_left 128 _)
      have hseven : n >>> 7 = n / 128 := Nat.shiftRight_eq_div_pow n 7
      have hhigh : (n / 128) >>> (7 * groups) < 2 := by
        rw [← hseven, ← Nat.shiftRight_add, Nat.add_comm]
        exact hn
      have hsum : (n % 128 + 128) % 128 + 128 * (n / 128) = n := by omega
      intro rest
      rw [Varint.encode, if_neg hsmall, Varint.readGroups, List.cons_append,
        ← List.singleton_append,
        Consumer.run_bind_of_ok (reads_octet _ (Varint.encode (n / 128) ++ rest)), if_neg hge,
        Consumer.run_bind_of_ok (ih (n / 128) hhigh rest), hx, hsum]
      rfl

/-- **A number of 64 bits is read back.** -/
theorem reads_varint {n : Nat} (hn : n < UInt64.size) :
    Reads Varint.read (Varint.encode n) n := by
  refine reads_readGroups 9 n ?_
  have hlast : n >>> 63 = n / 9223372036854775808 := Nat.shiftRight_eq_div_pow n 63
  rw [show 7 * 9 = 63 from rfl, hlast]
  simp only [UInt64.size] at hn
  omega

/-! ## Keys and values -/

/-- A key is the number that it was made from. -/
theorem Key.ofNat_toNat (key : Key) (hnumber : key.number ≠ 0)
    (hsize : key.toNat < UInt32.size) : Key.ofNat key.toNat = .ok key := by
  obtain ⟨number, wireType⟩ := key
  have hlow : wireType.number < 8 := by cases wireType <;> decide
  have hmod : Key.toNat ⟨number, wireType⟩ % 8 = wireType.number := by
    change (number * 8 + wireType.number) % 8 = _
    omega
  have hdiv : Key.toNat ⟨number, wireType⟩ / 8 = number := by
    change (number * 8 + wireType.number) / 8 = _
    omega
  have hne : ¬ number = 0 := hnumber
  rw [Key.ofNat, if_neg (Nat.not_le.2 hsize), hmod, hdiv, WireType.ofNumber?_number]
  simp only [if_neg hne]

/-- A key is read back where the field's number is one of a message type. -/
theorem reads_key {number : Nat} (wireType : WireType) (hnumber : number ≠ 0)
    (hsmall : number < 16) : Reads Key.read (encodeKey number wireType) ⟨number, wireType⟩ := by
  have hlow : wireType.number < 8 := by cases wireType <;> decide
  have hsize : Key.toNat ⟨number, wireType⟩ < 128 := by
    change number * 8 + wireType.number < 128
    omega
  have hof := Key.ofNat_toNat ⟨number, wireType⟩ hnumber
    (Nat.lt_trans hsize (by decide))
  intro rest
  rw [encodeKey, Key.read,
    Consumer.run_bind_of_ok (reads_varint (Nat.lt_trans hsize (by decide)) rest), hof]
  rfl

theorem reads_readUInt64 (number : Nat) (value : UInt64) :
    Reads (readUInt64 ⟨number, .varint⟩) (Varint.encode value.toNat) value := by
  have h := (reads_varint value.toNat_lt).map UInt64.ofNat
  rw [UInt64.ofNat_toNat] at h
  exact h

theorem reads_readDelimited (number : Nat) {value : Bytes} (h : value.length < UInt64.size) :
    Reads (readDelimited ⟨number, .lengthDelimited⟩) (Varint.encode value.length ++ value)
      value :=
  (reads_varint h).bind (reads_take value)

theorem reads_readString (number : Nat) {value : String} (h : value.utf8ByteSize < UInt64.size) :
    Reads (readString ⟨number, .lengthDelimited⟩)
      (Varint.encode (Bytes.ofString value).length ++ Bytes.ofString value) value := by
  intro rest
  rw [readString, Consumer.run_bind_of_ok (reads_readDelimited number (by simpa using h) rest),
    Bytes.toString?_ofString]
  rfl

/-! ## The fields of a message -/

/-- Before it stops, a message reads a key and a value and goes on. -/
theorem runFields_of_lt {step : Key → α → Reader α} {stop : Nat} {message : α} {u : Unread}
    (h : stop < u.size) :
    runFields step stop message u =
      (Key.read >>= fun key => step key message >>= Reader.fields step stop).run u := by
  rw [runFields, if_neg (Nat.not_le.2 h)]
  split
  · next e hkey => rw [Consumer.run_bind, hkey]
  · next key mid hkey =>
    rw [Consumer.run_bind_of_ok hkey]
    split
    · next e hvalue => rw [Consumer.run_bind, hvalue]
    · next next after hvalue =>
      rw [Consumer.run_bind_of_ok hvalue]
      rfl

/-- **A message through some fields.** The loop that has just these octets
before the point where it stops takes the one message to the other, whatever
stands behind that point. -/
def Folds (step : Key → α → Reader α) (message : α) (b : Bytes) (result : α) : Prop :=
  ∀ rest : Bytes,
    (Reader.fields step rest.length message).run (.ofBytes (b ++ rest)) =
      .ok (result, .ofBytes rest)

/-- One field takes a message to another: its key is read, and then the step
reads its value. -/
def Takes (step : Key → α → Reader α) (message : α) (field : Bytes) (result : α) : Prop :=
  ∃ key k v, field = k ++ v ∧ Reads Key.read k key ∧ Reads (step key message) v result

/-- A known field is taken in when its value is read back. -/
theorem takes_field {step : Key → α → Reader α} {message : α} {wireType : WireType}
    {member : Member} {r : Reader β} {v : Bytes} {x : β} (number : Nat) (f : β → α)
    (hnumber : number ≠ 0) (hsmall : number < 16)
    (hstep : step ⟨number, wireType⟩ message = .within member do return f (← r))
    (h : Reads r v x) : Takes step message (encodeKey number wireType ++ v) (f x) := by
  refine ⟨⟨number, wireType⟩, _, v, rfl, reads_key wireType hnumber hsmall, ?_⟩
  rw [hstep]
  exact (h.map f).within member

namespace Folds

variable {step : Key → α → Reader α}

/-- Without fields a message stays what it is. -/
theorem nil (message : α) : Folds step message [] message := by
  intro rest
  change runFields step rest.length message (.ofBytes rest) = _
  rw [runFields, if_pos (by simp [Unread.ofBytes])]

/-- **A field in front is taken in first.** -/
theorem field {message next result : α} {f b : Bytes} (hf : Takes step message f next)
    (hb : Folds step next b result) : Folds step message (f ++ b) result := by
  obtain ⟨key, k, v, rfl, hkey, hvalue⟩ := hf
  intro rest
  have hread := hkey (v ++ (b ++ rest))
  have hlt := Key.read_lt hread
  have happend : k ++ v ++ b ++ rest = k ++ (v ++ (b ++ rest)) := by simp
  have hmore : rest.length < (Unread.ofBytes (k ++ (v ++ (b ++ rest)))).size := by
    simp only [Unread.ofBytes, List.length_append] at hlt ⊢
    omega
  change runFields step rest.length message (.ofBytes (k ++ v ++ b ++ rest)) = _
  rw [happend, runFields_of_lt hmore, Consumer.run_bind_of_ok hread,
    Consumer.run_bind_of_ok (hvalue (b ++ rest))]
  exact hb rest

/-- **A repeated field is taken in one value after the other.** The message is
given by the values that were taken in before. -/
theorem repeated (step : Key → α → Reader α) {member : Member} {r : Reader β}
    {encode : β → Bytes} {values : List β} {b : Bytes} {result : α} (number : Nat)
    (message : Array β → α) (hnumber : number ≠ 0) (hsmall : number < 16)
    (hstep : ∀ done : Array β, step ⟨number, .lengthDelimited⟩ (message done) =
      .within member do return message (done.push (← r)))
    (hvalues : ∀ value ∈ values,
      Reads r (Varint.encode (encode value).length ++ encode value) value)
    (hb : Folds step (message values.toArray) b result) :
    Folds step (message #[])
      ((values.flatMap fun value => encodeDelimited number (encode value)) ++ b) result := by
  -- the values still to come are taken in on top of any that were
  have hfrom : ∀ (left done : List β), done ++ left = values →
      Folds step (message done.toArray)
        ((left.flatMap fun value => encodeDelimited number (encode value)) ++ b) result := by
    intro left
    induction left with
    | nil =>
      intro done hdone
      obtain rfl : done = values := by simpa using hdone
      exact hb
    | cons value left ih =>
      intro done hdone
      have hmem : value ∈ values := by simp [← hdone]
      have htakes := takes_field number (fun v => message (done.toArray.push v)) hnumber
        hsmall (hstep done.toArray) (hvalues value hmem)
      rw [List.push_toArray] at htakes
      rw [List.flatMap_cons, List.append_assoc]
      exact field htakes (ih (done ++ [value]) (by simp [← hdone]))
  exact hfrom values [] rfl

end Folds

/-- An embedded message is read where its length is followed by octets that it
goes through. -/
theorem run_readEmbedded {step : Nat → Key → α → Reader α} {empty message : α} {b rest : Bytes}
    {u : Unread} (number depth : Nat)
    (hlength : Varint.read.run u = .ok (b.length, .ofBytes (b ++ rest)))
    (h : Folds (step depth) empty b message) :
    (readEmbedded step empty (depth + 1) ⟨number, .lengthDelimited⟩).run u =
      .ok (message, .ofBytes rest) := by
  have hsize : (Unread.ofBytes (b ++ rest)).size = b.length + rest.length := by
    simp [Unread.ofBytes]
  have hstop : b.length + rest.length - b.length = rest.length := by omega
  -- the message stops as far from the end as what follows it is long
  rw [readEmbedded, Consumer.run_bind_of_ok (a := ()) rfl, if_neg (by omega),
    Consumer.run_bind_of_ok hlength,
    Consumer.run_bind_of_ok (a := Unread.ofBytes (b ++ rest)) rfl, hsize, if_neg (by omega),
    hstop, Nat.add_sub_cancel, Consumer.run_bind_of_ok (h rest),
    Consumer.run_bind_of_ok (a := Unread.ofBytes rest) rfl,
    if_pos (by rfl : (Unread.ofBytes rest).size = rest.length)]
  rfl

/-- An embedded message that is read has its length in front, and its fields end
where the length says. -/
theorem exists_of_run_readEmbedded {step : Nat → Key → α → Reader α} {empty : α} {depth : Nat}
    {key : Key} {u rest : Unread} {message : α}
    (h : (readEmbedded step empty depth key).run u = .ok (message, rest)) :
    ∃ length mid, key.wireType = .lengthDelimited ∧ Varint.read.run u = .ok (length, mid) ∧
      (Reader.fields (step (depth - 1)) (mid.size - length) empty).run mid = .ok (message, rest) ∧
      rest.size + length = mid.size := by
  obtain ⟨_, _, hexpect, h⟩ := Consumer.run_bind_eq_ok_iff.1 h
  obtain ⟨hkey, rfl⟩ := Key.run_expect_eq_ok_iff.1 hexpect
  split at h
  · cases h
  · obtain ⟨length, mid, hlength, h⟩ := Consumer.run_bind_eq_ok_iff.1 h
    obtain ⟨_, _, ⟨⟩, h⟩ := Consumer.run_bind_eq_ok_iff.1 h
    split at h
    · cases h
    · next hlong =>
      obtain ⟨_, _, hfields, h⟩ := Consumer.run_bind_eq_ok_iff.1 h
      obtain ⟨_, _, ⟨⟩, h⟩ := Consumer.run_bind_eq_ok_iff.1 h
      split at h
      · next hstop =>
        cases h
        exact ⟨length, mid, hkey, hlength, hfields, by omega⟩
      · cases h

/-- **An embedded message is read back** with its length in front, as far as
its fields are. -/
theorem reads_readEmbedded {step : Nat → Key → α → Reader α} {empty message : α} {b : Bytes}
    (number depth : Nat) (hlength : b.length < UInt64.size)
    (h : Folds (step depth) empty b message) :
    Reads (readEmbedded step empty (depth + 1) ⟨number, .lengthDelimited⟩)
      (Varint.encode b.length ++ b) message := by
  intro rest
  rw [List.append_assoc]
  exact run_readEmbedded number depth (reads_varint hlength (b ++ rest)) h

/-- A message is its fields up to the end of the octets. -/
theorem decode_of_folds {step : Nat → Key → α → Reader α} {empty message : α} {b : Bytes}
    (h : Folds (step depthLimit) empty b message) : decode step empty b = .ok message := by
  have hrun := h []
  rw [List.append_nil, List.length_nil] at hrun
  rw [decode, hrun]
  rfl

end Wire

end AggregatedRecords
