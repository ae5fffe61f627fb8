import AggregatedRecords.Proofs.Wire.Reads
/-!
# Wire — a reader sees only what it takes

`Reads` starts from octets that are known. Here it is the other way about: of
any octets that a reader accepts, it takes a part in front, and it takes this
part to the same value whatever stands behind it. A reader like that is
`Local`, and all readers of fields are.

A message can then be cut at the ends of its fields. Where its loop comes to an
end just where it should, it has gone through fields (`exists_folds`), and
reading an embedded message is reading octets and going through them
(`run_readEmbedded_eq_ok_iff`). And it can be put together there: behind octets
that decode, others add to it what they decode to (`decode_append`).
-/

namespace AggregatedRecords

namespace Wire

variable {α β : Type}

/-- What is unread is told by its octets. -/
theorem Unread.eq_ofBytes (u : Unread) : u = .ofBytes u.octets := Unread.eq_of_octets rfl

/-- **A reader sees only what it takes.** What it is run on begins with octets
that it takes to its value whatever follows them. -/
def Local (r : Reader α) : Prop :=
  ∀ u a rest, r.run u = .ok (a, rest) →
    ∃ b : Bytes, u = .ofBytes (b ++ rest.octets) ∧ Reads r b a

theorem local_pure (a : α) : Local (pure a : Reader α) := by
  rintro u _ _ ⟨⟩
  exact ⟨[], u.eq_ofBytes, reads_pure a⟩

theorem local_fail (cause : Cause) : Local (Reader.fail cause : Reader α) := by
  intro u a rest h
  cases h

namespace Local

/-- **Readers in sequence see what each of them takes.** -/
theorem bind {first : Reader α} {next : α → Reader β} (hfirst : Local first)
    (hnext : ∀ a, Local (next a)) : Local (first >>= next) := by
  intro u d rest h
  obtain ⟨a, mid, ha, hd⟩ := Consumer.run_bind_eq_ok_iff.1 h
  obtain ⟨b, rfl, hb⟩ := hfirst u a mid ha
  obtain ⟨c, rfl, hc⟩ := hnext a mid d rest hd
  exact ⟨b ++ c, by simp, hb.bind hc⟩

end Local

/-! ## Numbers and values -/

theorem local_octet : Local Reader.octet := by
  intro u x rest h
  cases hu : u.octets with
  | nil => simp [Reader.octet, hu] at h
  | cons y ys =>
    simp only [Reader.octet, hu, Except.ok.injEq, Prod.mk.injEq] at h
    obtain ⟨rfl, rfl⟩ := h
    exact ⟨[y], Unread.eq_of_octets (by simp [hu]), reads_octet y⟩

/-- Octets are taken from in front, and no fewer than asked for. -/
theorem run_take_eq_ok_iff {n : Nat} {u rest : Unread} {b : Bytes} :
    (Reader.take n).run u = .ok (b, rest) ↔ n = b.length ∧ u = .ofBytes (b ++ rest.octets) := by
  constructor
  · intro h
    simp only [Reader.take] at h
    split at h
    · cases h
    · next hsize =>
      cases h
      rw [u.size_eq] at hsize
      exact ⟨by simp; omega, Unread.eq_of_octets (by simp)⟩
  · rintro ⟨rfl, rfl⟩
    rw [reads_take b rest.octets, ← rest.eq_ofBytes]

theorem local_take (n : Nat) : Local (Reader.take n) := by
  intro u b rest h
  obtain ⟨rfl, hu⟩ := run_take_eq_ok_iff.1 h
  exact ⟨b, hu, reads_take b⟩

/-- Octets that are skipped are taken, and then forgotten. -/
theorem run_skip (n : Nat) (u : Unread) :
    (Reader.skip n).run u = (Reader.take n >>= fun _ => pure ()).run u := by
  rw [Consumer.run_bind]
  simp only [Reader.skip, Reader.take]
  split <;> rfl

theorem local_skip (n : Nat) : Local (Reader.skip n) := by
  have htake := (local_take n).bind fun _ => local_pure ()
  intro u a rest h
  obtain ⟨b, hu, hb⟩ := htake u a rest (by rwa [run_skip] at h)
  exact ⟨b, hu, fun t => by rw [run_skip, hb t]⟩

theorem local_readGroups (groups : Nat) : Local (Varint.readGroups groups) := by
  induction groups with
  | zero => exact local_fail _
  | succ groups ih =>
    refine local_octet.bind fun x => ?_
    split
    · split
      · exact local_fail _
      · exact local_pure _
    · exact ih.bind fun _ => local_pure _

theorem local_varint : Local Varint.read := local_readGroups _

theorem local_key : Local Key.read := by
  refine local_varint.bind fun n => ?_
  split
  · exact local_fail _
  · exact local_pure _

theorem local_expect (key : Key) (wireType : WireType) : Local (key.expect wireType) := by
  unfold Key.expect
  split
  · exact local_pure _
  · exact local_fail _

theorem local_readDelimited (key : Key) : Local (readDelimited key) :=
  (local_expect key _).bind fun _ => local_varint.bind local_take

/-- Octets with their number in front are read behind a key of that form. -/
theorem run_readDelimited_eq_ok_iff {key : Key} {u rest : Unread} {b : Bytes} :
    (readDelimited key).run u = .ok (b, rest) ↔
      key.wireType = .lengthDelimited ∧
        Varint.read.run u = .ok (b.length, .ofBytes (b ++ rest.octets)) := by
  simp only [readDelimited, Consumer.run_bind_eq_ok_iff, Key.run_expect_eq_ok_iff, run_take_eq_ok_iff]
  constructor
  · rintro ⟨_, _, ⟨hkey, rfl⟩, _, _, hlength, rfl, rfl⟩
    exact ⟨hkey, hlength⟩
  · rintro ⟨hkey, hlength⟩
    exact ⟨(), u, ⟨hkey, rfl⟩, _, _, hlength, rfl, rfl⟩

/-! ## Fields that are skipped -/

/-- Skipping a group is reading a key, which ends it, or a key and a value and
what is left of the group. -/
theorem runGroup_eq_ok_iff {skip : Key → Reader Unit} {number : Nat} {u rest : Unread} {a : Unit} :
    runGroup skip number u = .ok (a, rest) ↔
      ∃ key mid, Key.read.run u = .ok (key, mid) ∧
        if key.wireType = .endGroup then key.number = number ∧ mid = rest
        else ∃ next, (skip key).run mid = .ok ((), next) ∧
          runGroup skip number next = .ok (a, rest) := by
  rw [runGroup]
  split
  · next e hkey => simp [hkey]
  · next key mid hkey =>
    simp only [hkey, Except.ok.injEq, Prod.mk.injEq, and_assoc, exists_and_left, exists_eq_left']
    split
    · split <;> simp_all
    · split <;> simp_all

theorem local_group {skip : Key → Reader Unit} (hskip : ∀ key, Local (skip key)) (number : Nat) :
    Local (Reader.group skip number) := by
  intro u a rest h
  change runGroup skip number u = .ok (a, rest) at h
  fun_induction runGroup skip number u with
  | case1 => cases h
  | case2 u key mid hkey hend hnumber =>
    cases h
    obtain ⟨k, rfl, hk⟩ := local_key _ _ _ hkey
    refine ⟨k, rfl, fun t => runGroup_eq_ok_iff.2 ⟨key, _, hk t, ?_⟩⟩
    rw [if_pos hend]
    exact ⟨hnumber, rfl⟩
  | case3 => cases h
  | case4 => cases h
  | case5 u key mid hkey hend next hvalue ih =>
    obtain ⟨k, rfl, hk⟩ := local_key _ _ _ hkey
    obtain ⟨v, rfl, hv⟩ := hskip key _ _ _ hvalue
    obtain ⟨b, rfl, hb⟩ := ih h
    refine ⟨k ++ (v ++ b), by simp, fun t => runGroup_eq_ok_iff.2 ⟨key, .ofBytes (v ++ (b ++ t)), ?_, ?_⟩⟩
    · simpa using hk (v ++ (b ++ t))
    · rw [if_neg hend]
      exact ⟨_, hv (b ++ t), hb t⟩

theorem local_skipField (depth : Nat) (key : Key) : Local (skipField depth key) := by
  induction depth generalizing key with
  | zero => exact local_fail _
  | succ depth ih =>
    unfold skipField
    split
    · exact local_varint.bind fun _ => local_pure _
    · exact local_skip 8
    · exact local_varint.bind local_skip
    · exact local_group ih _
    · exact local_fail _
    · exact local_skip 4

/-! ## Fields that are taken in -/

variable {step : Key → α → Reader α} {stop : Nat} {message result : α} {u rest : Unread}

/-- A message stops, or it takes a key and a value and goes on. -/
theorem runFields_eq_ok_iff :
    runFields step stop message u = .ok (result, rest) ↔
      if u.size ≤ stop then message = result ∧ u = rest
      else ∃ key mid next after, Key.read.run u = .ok (key, mid) ∧
        (step key message).run mid = .ok (next, after) ∧
          runFields step stop next after = .ok (result, rest) := by
  split
  · next hstop =>
    rw [runFields, if_pos hstop]
    simp
  · next hmore =>
    rw [runFields_of_lt (Nat.not_le.1 hmore)]
    simp only [Consumer.run_bind_eq_ok_iff, Reader.fields, exists_and_left]

/-- A message stops no earlier than it is told to. -/
theorem size_le_of_runFields (h : runFields step stop message u = .ok (result, rest)) :
    rest.size ≤ stop := by
  fun_induction runFields step stop message u with
  | case1 message u hstop =>
    cases h
    exact hstop
  | case2 => cases h
  | case3 => cases h
  | case4 message u _ key mid hkey next after hvalue ih => exact ih h

/-- **A message that was read has gone through fields**, and goes through them
whatever stands behind. -/
theorem exists_folds (hstep : ∀ key message, Local (step key message))
    (h : runFields step stop message u = .ok (result, rest)) :
    ∃ b : Bytes, u = .ofBytes (b ++ rest.octets) ∧ Folds step message b result := by
  fun_induction runFields step stop message u with
  | case1 =>
    cases h
    exact ⟨[], rest.eq_ofBytes, Folds.nil _⟩
  | case2 => cases h
  | case3 => cases h
  | case4 message u _ key mid hkey next after hvalue ih =>
    obtain ⟨k, rfl, hk⟩ := local_key _ _ _ hkey
    obtain ⟨v, rfl, hv⟩ := hstep key message _ _ _ hvalue
    obtain ⟨b, rfl, hb⟩ := ih h
    exact ⟨k ++ v ++ b, by simp, hb.field ⟨key, k, v, rfl, hk, hv⟩⟩

/-- **A message goes through all of some octets** when it is read from them. -/
theorem folds_iff_run (hstep : ∀ key message, Local (step key message)) {b : Bytes} :
    Folds step message b result ↔
      ∃ rest, runFields step 0 message (.ofBytes b) = .ok (result, rest) := by
  constructor
  · intro h
    have hrun := h []
    rw [List.append_nil] at hrun
    exact ⟨_, hrun⟩
  · rintro ⟨rest, hrun⟩
    obtain ⟨c, hc, hfolds⟩ := exists_folds hstep hrun
    have hend : rest.octets = [] :=
      List.eq_nil_of_length_eq_zero (rest.size_eq ▸ Nat.le_zero.1 (size_le_of_runFields hrun))
    have hall : b = c := by
      simpa [hend] using congrArg Unread.octets hc
    exact hall ▸ hfolds

/-- So octets decode to a message that goes through them. -/
theorem decode_eq_ok_iff {step : Nat → Key → α → Reader α} {empty : α} {b : Bytes}
    (hstep : ∀ key message, Local (step depthLimit key message)) :
    decode step empty b = .ok result ↔ Folds (step depthLimit) empty b result := by
  refine ⟨fun h => (folds_iff_run hstep).2 ?_, decode_of_folds⟩
  change (runFields (step depthLimit) 0 empty (.ofBytes b)).map Prod.fst = .ok result at h
  cases hrun : runFields (step depthLimit) 0 empty (.ofBytes b) with
  | error e =>
    rw [hrun] at h
    cases h
  | ok p =>
    rw [hrun] at h
    cases h
    exact ⟨p.2, rfl⟩

/-- **An embedded message is octets that it goes through**, where a level is
left for it. -/
theorem run_readEmbedded_eq_ok_iff {step : Nat → Key → α → Reader α} {empty : α} {depth : Nat}
    {key : Key} (hstep : ∀ key message, Local (step depth key message)) :
    (readEmbedded step empty (depth + 1) key).run u = .ok (result, rest) ↔
      ∃ b, (readDelimited key).run u = .ok (b, rest) ∧ Folds (step depth) empty b result := by
  simp only [run_readDelimited_eq_ok_iff]
  constructor
  · intro h
    obtain ⟨length, mid, hkey, hlength, hfields, hsize⟩ := exists_of_run_readEmbedded h
    obtain ⟨b, rfl, hfolds⟩ := exists_folds hstep hfields
    -- the length is that of the fields, as nothing of them is left at the stop
    have hb : length = b.length := by
      simp only [Unread.ofBytes, List.length_append, ← rest.size_eq] at hsize
      omega
    exact ⟨b, ⟨hkey, hb ▸ hlength⟩, hfolds⟩
  · obtain ⟨number, wireType⟩ := key
    rintro ⟨b, ⟨rfl, hlength⟩, hfolds⟩
    rw [run_readEmbedded number depth hlength hfolds, ← rest.eq_ofBytes]

/-! ## Messages one after the other -/

/-- **A message that stopped can go on** as if it had not. -/
theorem runFields_of_stop_le {further : Nat} (hle : further ≤ stop)
    (h : runFields step stop message u = .ok (result, rest)) :
    runFields step further message u = runFields step further result rest := by
  fun_induction runFields step stop message u with
  | case1 =>
    cases h
    rfl
  | case2 => cases h
  | case3 => cases h
  | case4 message u hmore key mid hkey next after hvalue ih =>
    rw [runFields_of_lt (by omega), Consumer.run_bind_of_ok hkey, Consumer.run_bind_of_ok hvalue]
    exact ih h

/-- **A step does not look at what it adds to**: a message that is changed
beforehand is changed in the same way afterwards. -/
def Commutes (step : Key → α → Reader α) (f : α → α) : Prop :=
  ∀ key message u, (step key (f message)).run u = ((step key message).run u).map (Prod.map f id)

/-- A step that puts a value into a message does not look at the message, -/
theorem run_put_map {r : Reader β} {f : α → α} {put put' : β → α} (hput : ∀ x, put x = f (put' x))
    (u : Unread) :
    (r >>= fun x => pure (put x)).run u =
      ((r >>= fun x => pure (put' x)).run u).map (Prod.map f id) := by
  rw [Consumer.run_bind, Consumer.run_bind]
  cases r.run u with
  | error e => rfl
  | ok p =>
    simp only [hput]
    rfl

/-- and neither does one that puts it into a member. -/
theorem run_within_put_map {r : Reader β} {f : α → α} {put put' : β → α}
    (hput : ∀ x, put x = f (put' x)) (member : Member) (u : Unread) :
    ((r >>= fun x => pure (put x)).within member).run u =
      (((r >>= fun x => pure (put' x)).within member).run u).map (Prod.map f id) := by
  simp only [Reader.within, Consumer.mapError, run_put_map hput]
  cases (r >>= fun x => pure (put' x)).run u <;> rfl

/-- So neither do the fields one after the other, whether they can be read or
not. -/
theorem runFields_map {f : α → α} (hstep : Commutes step f) :
    runFields step stop (f message) u = (runFields step stop message u).map (Prod.map f id) := by
  fun_induction runFields step stop message u with
  | case1 message u hstop =>
    rw [runFields, if_pos hstop]
    rfl
  | case2 message u hmore e hkey =>
    rw [runFields_of_lt (Nat.not_le.1 hmore), Consumer.run_bind, hkey]
    rfl
  | case3 message u hmore key mid hkey e hvalue =>
    rw [runFields_of_lt (Nat.not_le.1 hmore), Consumer.run_bind_of_ok hkey, Consumer.run_bind,
      hstep, hvalue]
    rfl
  | case4 message u hmore key mid hkey next after hvalue ih =>
    rw [runFields_of_lt (Nat.not_le.1 hmore), Consumer.run_bind_of_ok hkey, Consumer.run_bind,
      hstep, hvalue, ← ih]
    rfl

/-- **Behind octets that decode**, others decode as they do by themselves, but for
what is there already. -/
theorem decode_append {step : Nat → Key → α → Reader α} {empty : α} {f : α → α} {x y : Bytes}
    (hlocal : ∀ key message, Local (step depthLimit key message))
    (hstep : Commutes (step depthLimit) f) (hx : decode step empty x = .ok (f empty)) :
    decode step empty (x ++ y) = (decode step empty y).map f := by
  have hfirst : runFields (step depthLimit) y.length empty (.ofBytes (x ++ y)) =
      .ok (f empty, .ofBytes y) := (decode_eq_ok_iff hlocal).1 hx y
  have hrun : runFields (step depthLimit) 0 empty (.ofBytes (x ++ y)) =
      (runFields (step depthLimit) 0 empty (.ofBytes y)).map (Prod.map f id) := by
    rw [runFields_of_stop_le (Nat.zero_le _) hfirst, runFields_map hstep]
  change (runFields _ _ _ _).map _ = ((runFields _ _ _ _).map _).map _
  rw [hrun]
  cases runFields (step depthLimit) 0 empty (.ofBytes y) <;> rfl

end Wire

end AggregatedRecords
