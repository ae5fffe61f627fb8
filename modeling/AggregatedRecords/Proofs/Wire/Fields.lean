import AggregatedRecords.Proofs.Wire.Local
import Mathlib.Data.List.Induction
import Mathlib.Logic.Unique
/-!
# Wire — the fields that octets are

Without a type of message octets are a list of fields, each a number and as much
of its value as the form of it tells (`fieldsAt`). Whoever reads a message sees
no more than that. A `Views` says so of the reader of a value, and `Absorbs` of a
step, and then a message goes through octets as it does through their fields
(`folds_iff_fields`).

So what octets decode to can be said of the list alone: by what there is under
each number (`valuesOf`), no matter what stands in between.
-/

namespace AggregatedRecords

namespace Wire

variable {α β : Type}

/-- What the form of a value tells of it. -/
inductive Content where
  /-- A varint. -/
  | number (n : Nat)
  /-- Octets, with their number in front. -/
  | octets (b : Bytes)
  /-- A value of fixed width, or a group. -/
  | other
deriving Repr, DecidableEq

/-- A field of no particular message. -/
structure Field where
  number : Nat
  content : Content
deriving Repr, DecidableEq

/-- Reads a value by its form. -/
def readContent (depth : Nat) (key : Key) : Reader Content :=
  match key.wireType with
  | .varint => do
    return .number (← Varint.read)
  | .lengthDelimited => do
    return .octets (← readDelimited key)
  | _ => do
    skipField depth key
    return .other

/-- Takes any field into a list of fields. -/
def collect (depth : Nat) (key : Key) (fields : List Field) : Reader (List Field) := do
  return fields ++ [⟨key.number, ← readContent depth key⟩]

/-- The fields of a message that is embedded so many levels deep. -/
def fieldsAt (level : Nat) (b : Bytes) : Except Failure (List Field) :=
  decode (fun depth => collect (depth - level)) [] b

theorem local_readContent (depth : Nat) (key : Key) : Local (readContent depth key) := by
  unfold readContent
  split
  · exact local_varint.bind fun _ => local_pure _
  · exact (local_readDelimited key).bind fun _ => local_pure _
  · exact (local_skipField depth key).bind fun _ => local_pure _

theorem local_collect (depth : Nat) (key : Key) (fields : List Field) :
    Local (collect depth key fields) :=
  (local_readContent depth key).bind fun _ => local_pure _

/-- What is read as a list of fields goes through them. -/
theorem fieldsAt_eq_ok_iff {level : Nat} {b : Bytes} {fields : List Field} :
    fieldsAt level b = .ok fields ↔ Folds (collect (depthLimit - level)) [] b fields :=
  decode_eq_ok_iff (local_collect _)

theorem fieldsAt_bind_eq_some_iff {level : Nat} {b : Bytes} {ofFields? : List Field → Option α}
    {a : α} : (fieldsAt level b).toOption.bind ofFields? = some a ↔
      ∃ fields, fieldsAt level b = .ok fields ∧ ofFields? fields = some a := by
  cases fieldsAt level b <;> simp [Except.toOption]

@[simp] theorem fieldsAt_nil (level : Nat) : fieldsAt level [] = .ok [] :=
  fieldsAt_eq_ok_iff.2 (Folds.nil _)

/-- **The fields of octets one after the other** are those of the first and those of
the second. -/
theorem fieldsAt_append {level : Nat} {x y : Bytes} {before : List Field}
    (hx : fieldsAt level x = .ok before) :
    fieldsAt level (x ++ y) = (fieldsAt level y).map (before ++ ·) := by
  have hcommutes : Commutes (collect (depthLimit - level)) (before ++ ·) := fun _ fields u =>
    run_put_map (fun _ => List.append_assoc before fields _) u
  refine decode_append (local_collect _) hcommutes ?_
  rwa [List.append_nil]

/-! ## Views of a value -/

namespace Content

/-- The content as a number of 64 bits. -/
def uint64? : Content → Option UInt64
  | number n => some (UInt64.ofNat n)
  | _ => none

/-- The content as octets. -/
def octets? : Content → Option Bytes
  | octets b => some b
  | _ => none

/-- The content as a text. -/
def text? (content : Content) : Option String := content.octets?.bind Bytes.toString?

end Content

variable {depth : Nat}

theorem run_readContent_eq_number_iff {key : Key} {u rest : Unread} {n : Nat} :
    (readContent depth key).run u = .ok (.number n, rest) ↔
      key.wireType = .varint ∧ Varint.read.run u = .ok (n, rest) := by
  obtain ⟨number, wireType⟩ := key
  unfold readContent
  cases wireType <;> simp [Consumer.run_bind_eq_ok_iff]

theorem run_readContent_eq_octets_iff {key : Key} {u rest : Unread} {b : Bytes} :
    (readContent depth key).run u = .ok (.octets b, rest) ↔
      (readDelimited key).run u = .ok (b, rest) := by
  obtain ⟨number, wireType⟩ := key
  unfold readContent
  cases wireType <;> simp [Consumer.run_bind_eq_ok_iff, run_readDelimited_eq_ok_iff]

/-- **A reader sees no more than a view of the content**: it has a value just
where there is content to be read of which the view is that value. -/
def Views (depth : Nat) (r : Key → Reader β) (view : Content → Option β) : Prop :=
  ∀ key u x rest, (r key).run u = .ok (x, rest) ↔
    ∃ content, (readContent depth key).run u = .ok (content, rest) ∧ view content = some x

theorem views_readUInt64 : Views depth readUInt64 Content.uint64? := by
  intro key u x rest
  simp only [readUInt64, Consumer.run_bind_eq_ok_iff, Key.run_expect_eq_ok_iff]
  constructor
  · rintro ⟨_, _, ⟨hkey, rfl⟩, n, _, hn, ⟨⟩⟩
    exact ⟨.number n, run_readContent_eq_number_iff.2 ⟨hkey, hn⟩, rfl⟩
  · rintro ⟨content, hread, hview⟩
    cases content with
    | number n =>
      cases hview
      obtain ⟨hkey, hn⟩ := run_readContent_eq_number_iff.1 hread
      exact ⟨(), u, ⟨hkey, rfl⟩, n, rest, hn, rfl⟩
    | octets | other => cases hview

theorem views_readDelimited : Views depth readDelimited Content.octets? := by
  intro key u b rest
  constructor
  · exact fun h => ⟨.octets b, run_readContent_eq_octets_iff.2 h, rfl⟩
  · rintro ⟨content, hread, hview⟩
    cases content with
    | octets c =>
      cases hview
      exact run_readContent_eq_octets_iff.1 hread
    | number | other => cases hview

/-- **A value made of octets** is seen by what it is made of. -/
theorem views_of_readDelimited {r : Key → Reader β} {view : Bytes → Option β}
    (h : ∀ key u x rest, (r key).run u = .ok (x, rest) ↔
      ∃ b, (readDelimited key).run u = .ok (b, rest) ∧ view b = some x) :
    Views depth r fun content => content.octets?.bind view := by
  intro key u x rest
  simp only [h, @views_readDelimited depth key, Option.bind_eq_some_iff]
  constructor
  · rintro ⟨b, ⟨content, hread, hb⟩, hx⟩
    exact ⟨content, hread, b, hb, hx⟩
  · rintro ⟨content, hread, b, hb, hx⟩
    exact ⟨b, ⟨content, hread, hb⟩, hx⟩

theorem views_readString : Views depth readString Content.text? := by
  refine views_of_readDelimited fun key u s rest => ?_
  simp only [readString, Consumer.run_bind_eq_ok_iff]
  constructor
  · rintro ⟨b, mid, hb, h⟩
    split at h
    · cases h
    · next hs =>
      cases h
      exact ⟨b, hb, hs⟩
  · rintro ⟨b, hb, hs⟩
    refine ⟨b, rest, hb, ?_⟩
    rw [hs]
    rfl

/-- An embedded message is seen by what its octets are. -/
theorem views_readEmbedded {step : Nat → Key → α → Reader α} {empty : α} {level : Nat}
    {ofOctets? : Bytes → Option α} (hstep : ∀ key message, Local (step level key message))
    (h : ∀ b message, Folds (step level) empty b message ↔ ofOctets? b = some message) :
    Views depth (readEmbedded step empty (level + 1)) fun content => content.octets?.bind ofOctets? :=
  views_of_readDelimited fun key u message rest => by
    simp only [run_readEmbedded_eq_ok_iff hstep, h]

/-- What is skipped may be any content. -/
theorem views_skipField : Views (depth + 1) (skipField (depth + 1)) fun _ => some () := by
  rintro ⟨number, wireType⟩ u ⟨⟩ rest
  unfold readContent
  cases wireType
  case varint => simp [skipField, Consumer.run_bind_eq_ok_iff]
  case lengthDelimited =>
    simp only [skipField, readDelimited, Consumer.run_bind_eq_ok_iff, Key.run_expect_eq_ok_iff, run_skip]
    constructor
    · rintro ⟨n, mid, hn, b, _, hb, ⟨⟩⟩
      exact ⟨.octets b, ⟨b, rest, ⟨(), u, ⟨trivial, rfl⟩, n, mid, hn, hb⟩, rfl⟩, trivial⟩
    · rintro ⟨_, ⟨b, _, ⟨_, _, ⟨-, rfl⟩, n, mid, hn, hb⟩, ⟨⟩⟩, -⟩
      exact ⟨n, mid, hn, b, rest, hb, rfl⟩
  all_goals simp [Consumer.run_bind_eq_ok_iff, Unique.exists_iff]

/-- A value that is only passed on is seen by the same view. -/
theorem Views.run_map {r : Key → Reader β} {view : Content → Option β} (h : Views depth r view)
    (f : β → α) {key : Key} {u rest : Unread} {result : α} :
    (r key >>= fun x => pure (f x)).run u = .ok (result, rest) ↔
      ∃ content, (readContent depth key).run u = .ok (content, rest) ∧
        (view content).map f = some result := by
  simp only [Consumer.run_bind_eq_ok_iff, h key, Option.map_eq_some_iff]
  constructor
  · rintro ⟨x, mid, ⟨content, hread, hx⟩, ⟨⟩⟩
    exact ⟨content, hread, x, hx, rfl⟩
  · rintro ⟨content, hread, x, hx, rfl⟩
    exact ⟨x, rest, ⟨content, hread, hx⟩, rfl⟩

/-- And so is a value within a member. -/
theorem Views.run_within {r : Key → Reader β} {view : Content → Option β} (h : Views depth r view)
    (member : Member) (f : β → α) {key : Key} {u rest : Unread} {result : α} :
    ((r key >>= fun x => pure (f x)).within member).run u = .ok (result, rest) ↔
      ∃ content, (readContent depth key).run u = .ok (content, rest) ∧
        (view content).map f = some result :=
  Reader.run_within_eq_ok_iff.trans (h.run_map f)

/-! ## Messages -/

/-- **A step sees no more of a field** than its number and content. -/
def Absorbs (depth : Nat) (step : Key → α → Reader α) (take : Field → α → Option α) : Prop :=
  ∀ key message u result rest, (step key message).run u = .ok (result, rest) ↔
    ∃ content, (readContent depth key).run u = .ok (content, rest) ∧
      take ⟨key.number, content⟩ message = some result

/-- What comes of taking fields in one after the other. -/
def takeAll (take : Field → α → Option α) (message : α) (fields : List Field) : Option α :=
  fields.foldlM (fun message field => take field message) message

variable {step : Key → α → Reader α} {take : Field → α → Option α}

/-- A step sees what the reader of the content does. -/
theorem Absorbs.isLocal (h : Absorbs depth step take) (key : Key) (message : α) :
    Local (step key message) := by
  intro u result rest hrun
  obtain ⟨content, hread, htake⟩ := (h key message u result rest).1 hrun
  obtain ⟨b, hu, hb⟩ := local_readContent depth key u content rest hread
  exact ⟨b, hu, fun t => (h key message _ result _).2 ⟨content, hb t, htake⟩⟩

/-- Fields that were collected stay in front. -/
theorem exists_append_of_runFields {stop : Nat} {done all : List Field} {u rest : Unread}
    (h : runFields (collect depth) stop done u = .ok (all, rest)) : ∃ more, all = done ++ more := by
  fun_induction runFields (collect depth) stop done u with
  | case1 =>
    cases h
    exact ⟨[], (List.append_nil _).symm⟩
  | case2 => cases h
  | case3 => cases h
  | case4 done u _ key mid _ next after hvalue ih =>
    obtain ⟨content, _, _, ⟨⟩⟩ := Consumer.run_bind_eq_ok_iff.1 hvalue
    obtain ⟨more, rfl⟩ := ih h
    exact ⟨⟨key.number, content⟩ :: more, by simp⟩

/-- **Reading a message is collecting its fields**, and taking them in. -/
theorem runFields_eq_ok_iff_takeAll (h : Absorbs depth step take) {stop : Nat} {message result : α}
    {u rest : Unread} (done : List Field) :
    runFields step stop message u = .ok (result, rest) ↔
      ∃ more, runFields (collect depth) stop done u = .ok (done ++ more, rest) ∧
        takeAll take message more = some result := by
  induction hsize : u.size using Nat.strongRecOn generalizing u message done with
  | _ n ih =>
    subst hsize
    simp only [runFields_eq_ok_iff (u := u)]
    by_cases hstop : u.size ≤ stop
    · simp only [if_pos hstop]
      constructor
      · rintro ⟨rfl, rfl⟩
        exact ⟨[], ⟨(List.append_nil done).symm, rfl⟩, rfl⟩
      · rintro ⟨more, ⟨hdone, rfl⟩, htake⟩
        obtain rfl : more = [] := by simpa using hdone
        cases htake
        exact ⟨rfl, rfl⟩
    · simp only [if_neg hstop]
      -- both read the same key, and what the step takes in is what is collected
      have hcollect {key : Key} {mid after : Unread} {content : Content}
          (hread : (readContent depth key).run mid = .ok (content, after)) :
          (collect depth key done).run mid = .ok (done ++ [⟨key.number, content⟩], after) :=
        Consumer.run_bind_of_ok hread
      have hsmaller {key : Key} {mid after : Unread} {content : Content}
          (hkey : Key.read.run u = .ok (key, mid))
          (hread : (readContent depth key).run mid = .ok (content, after)) : after.size < u.size :=
        Nat.lt_of_le_of_lt (Consumer.shrinks _ hread) (Key.read_lt hkey)
      constructor
      · rintro ⟨key, mid, next, after, hkey, hvalue, hrest⟩
        obtain ⟨content, hread, htake⟩ := (h key message _ _ _).1 hvalue
        obtain ⟨more, hmore, hall⟩ :=
          (ih _ (hsmaller hkey hread) (done ++ [⟨key.number, content⟩]) rfl).1 hrest
        refine ⟨⟨key.number, content⟩ :: more, ⟨key, mid, _, after, hkey, hcollect hread, ?_⟩, ?_⟩
        · simpa using hmore
        · rw [takeAll, List.foldlM_cons, htake]
          exact hall
      · rintro ⟨more, ⟨key, mid, next, after, hkey, hvalue, hrest⟩, hall⟩
        obtain ⟨content, _, hread, ⟨⟩⟩ := Consumer.run_bind_eq_ok_iff.1 hvalue
        obtain ⟨more, hmore⟩ := exists_append_of_runFields hrest
        obtain rfl : _ = ⟨key.number, content⟩ :: more := by simpa using hmore
        rw [takeAll, List.foldlM_cons, Option.bind_eq_bind, Option.bind_eq_some_iff] at hall
        obtain ⟨next, htake, hall⟩ := hall
        refine ⟨key, mid, next, after, hkey, (h key message _ _ _).2 ⟨content, hread, htake⟩, ?_⟩
        refine (ih _ (hsmaller hkey hread) (done ++ [⟨key.number, content⟩]) rfl).2 ⟨more, ?_, hall⟩
        simpa using hrest

/-- **A message goes through octets as through their fields.** -/
theorem folds_iff_fields {level : Nat} (h : Absorbs (depthLimit - level) step take)
    {message result : α} {b : Bytes} :
    Folds step message b result ↔
      ∃ fields, fieldsAt level b = .ok fields ∧ takeAll take message fields = some result := by
  simp only [fieldsAt_eq_ok_iff, folds_iff_run h.isLocal, folds_iff_run (local_collect _),
    runFields_eq_ok_iff_takeAll h [], List.nil_append]
  constructor
  · rintro ⟨rest, fields, hrun, htake⟩
    exact ⟨fields, ⟨rest, hrun⟩, htake⟩
  · rintro ⟨fields, ⟨rest, hrun⟩, htake⟩
    exact ⟨rest, fields, hrun, htake⟩

/-- Octets that are written as a field are collected with its number. -/
theorem takes_collect {number : Nat} {b : Bytes} (fields : List Field) (hnumber : number ≠ 0)
    (hsmall : number < 16) (hlength : b.length < UInt64.size) :
    Takes (collect depth) fields (encodeDelimited number b) (fields ++ [⟨number, .octets b⟩]) := by
  have hread : Reads (readContent depth ⟨number, .lengthDelimited⟩)
      (Varint.encode b.length ++ b) (.octets b) :=
    fun rest => run_readContent_eq_octets_iff.2 (reads_readDelimited number hlength rest)
  exact ⟨_, _, _, rfl, reads_key .lengthDelimited hnumber hsmall,
    hread.map fun content => fields ++ [Field.mk number content]⟩

/-- And so is a number that is written as one. -/
theorem takes_collect_number {number : Nat} (value : UInt64) (fields : List Field)
    (hnumber : number ≠ 0) (hsmall : number < 16) :
    Takes (collect depth) fields (encodeUInt64 number value)
      (fields ++ [⟨number, .number value.toNat⟩]) := by
  have hread : Reads (readContent depth ⟨number, .varint⟩) (Varint.encode value.toNat)
      (.number value.toNat) :=
    fun rest => run_readContent_eq_number_iff.2 ⟨rfl, reads_varint value.toNat_lt rest⟩
  exact ⟨_, _, _, rfl, reads_key .varint hnumber hsmall,
    hread.map fun content => fields ++ [Field.mk number content]⟩

/-! ## Fields by their numbers -/

/-- What a view has of the fields with a number, if it has something of each. -/
def valuesOf (view : Content → Option β) (number : Nat) (fields : List Field) : Option (List β) :=
  (fields.filter (·.number = number)).mapM fun field => view field.content

/-- A field adds to the values of its own number only. -/
theorem valuesOf_concat (view : Content → Option β) (number : Nat) (fields : List Field)
    (field : Field) :
    valuesOf view number (fields ++ [field]) =
      if field.number = number then
        (valuesOf view number fields).bind fun values => (view field.content).map (values ++ [·])
      else valuesOf view number fields := by
  simp only [valuesOf, List.filter_append, List.mapM_append]
  by_cases h : field.number = number
  · cases hview : view field.content <;> simp [h, hview, Option.map_eq_bind]
  · simp [h]

/-- And fields of other numbers may stand anywhere. -/
theorem valuesOf_insert (view : Content → Option β) {number : Nat}
    {before fields after : List Field} (h : ∀ field ∈ fields, field.number ≠ number) :
    valuesOf view number (before ++ (fields ++ after)) = valuesOf view number (before ++ after) := by
  have hnone : fields.filter (·.number = number) = [] :=
    List.filter_eq_nil_iff.2 fun field hmem => by simp [h field hmem]
  simp only [valuesOf, List.filter_append, hnone, List.nil_append]

/-- Each field of a number has a value among them. -/
theorem exists_mem_of_valuesOf {view : Content → Option β} {number : Nat} {fields : List Field}
    {values : List β} (h : valuesOf view number fields = some values) {content : Content}
    (hmem : ⟨number, content⟩ ∈ fields) : ∃ x ∈ values, view content = some x := by
  induction fields using List.reverseRecOn generalizing values with
  | nil => cases hmem
  | append_singleton fields field ih =>
    rw [valuesOf_concat] at h
    rcases List.mem_append.1 hmem with hbefore | hlast
    · split at h
      · simp only [Option.bind_eq_some_iff, Option.map_eq_some_iff] at h
        obtain ⟨before, hvalues, last, -, rfl⟩ := h
        obtain ⟨x, hx, hview⟩ := ih hvalues hbefore
        exact ⟨x, List.mem_append_left _ hx, hview⟩
      · exact ih h hbefore
    · obtain rfl := List.mem_singleton.1 hlast
      simp only [if_true, Option.bind_eq_some_iff, Option.map_eq_some_iff] at h
      obtain ⟨before, -, last, hview, rfl⟩ := h
      exact ⟨last, by simp, hview⟩

/-- The octets of a message so many levels deep have a field of a number. -/
def Carries (level : Nat) (b : Bytes) (number : Nat) : Prop :=
  ∃ fields, fieldsAt level b = .ok fields ∧ ∃ field ∈ fields, field.number = number

theorem not_carries_nil (level number : Nat) : ¬ Carries level [] number := by
  simp [Carries]

/-- Without a field of a number there are no values of it. -/
theorem valuesOf_of_not_carries {level number : Nat} {b : Bytes} {fields : List Field}
    (view : Content → Option β) (hfields : fieldsAt level b = .ok fields)
    (h : ¬ Carries level b number) : valuesOf view number fields = some [] := by
  have hnone : fields.filter (·.number = number) = [] := by
    refine List.filter_eq_nil_iff.2 fun field hmem hnumber => h ⟨fields, hfields, field, hmem, ?_⟩
    exact of_decide_eq_true hnumber
  rw [valuesOf, hnone]
  rfl

/-- **What octets are by their fields** is what a step reads of them, if it
keeps up with each field that is added. -/
theorem folds_iff_ofFields {level : Nat} {empty result : α} {ofFields? : List Field → Option α}
    {b : Bytes} (h : Absorbs (depthLimit - level) step take) (hnil : ofFields? [] = some empty)
    (hconcat : ∀ fields field, ofFields? (fields ++ [field]) = (ofFields? fields).bind (take field)) :
    Folds step empty b result ↔ (fieldsAt level b).toOption.bind ofFields? = some result := by
  have hall (fields : List Field) : takeAll take empty fields = ofFields? fields := by
    induction fields using List.reverseRecOn with
    | nil => exact hnil.symm
    | append_singleton fields field ih =>
      rw [hconcat, ← ih, takeAll, List.foldlM_append]
      simp only [List.foldlM_cons, List.foldlM_nil, bind_pure]
      rfl
  simp only [folds_iff_fields h, fieldsAt_bind_eq_some_iff, hall]

end Wire

end AggregatedRecords
