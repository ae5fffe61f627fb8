import AggregatedRecords.Pattern.Item
import AggregatedRecords.Proofs.Text.Escaped
import AggregatedRecords.Rendering.Text
/-!
# Rendering — a reader of the text format

The reader takes a message in the text format of protocol buffers: fields in
any order, each on a line of its own under its name, messages nested between
braces, blanks in front of a line as many as there are. What a field is told
apart by is its name alone; nothing depends on where it stands.

`Reads` says of a reader that it takes exactly some characters off the front,
whatever follows them. `Folds` says of characters that they are fields which
take one message to another, and the loop takes in just those before it comes
to the end of the message (`Folds.run`).
-/

namespace AggregatedRecords

namespace TextFormat

open Pattern (Reader)

variable {α β : Type}

/-! ## Reading -/

/-- Takes a text, which must come next. -/
def expect (text : List Char) : Reader Unit := do
  Reader.require (← Reader.accept text)

/-- Takes what is left of a line, and the end of the line. -/
def line : Reader (List Char) := do
  let line ← Reader.upTo (· = '\n')
  expect ['\n']
  return line

/-- Reads the value of a field behind its name. -/
def scalar (ofText? : List Char → Option α) : Reader α := do
  expect [':', ' ']
  match ofText? (← line) with
  | some a => return a
  | none => Consumer.fail ()

/-- The octets between quotes. -/
def quoted? : List Char → Option Bytes
  | '"' :: rest => if rest.getLast? = some '"' then Text.unescape? rest.dropLast else none
  | _ => none

/-- The text whose octets are between quotes. -/
def string? (text : List Char) : Option String := quoted? text >>= Bytes.toString?

/-- Whether a character may stand in the name of a field. -/
def isNameChar (c : Char) : Bool := c.isAlpha || c = '_'

/-- Whether a text is the name of a field. -/
def isName (name : String) : Bool := !name.toList.isEmpty && name.toList.all isNameChar

/-- Takes a field into a message, or ends the message where there is no name. -/
def field (step : String → α → Reader α) (message : α) : Reader (α ⊕ α) := do
  let _ ← Reader.upTo (· ≠ ' ')
  match ← Reader.upTo (fun c => !isNameChar c) with
  | [] => return .inr message
  | name => return .inl (← step (String.ofList name) message)

/-- Takes fields into a message until it ends. -/
def fields (step : String → α → Reader α) : α → Reader α := Consumer.iterate () (field step)

/-- Reads a nested message behind its name, from nothing on. -/
def nested (step : String → α → Reader α) (empty : α) : Reader α := do
  expect [' ', '\x7b', '\n']
  let message ← fields step empty
  expect ['\x7d', '\n']
  return message

/-- The message whose fields a text is. -/
def read? (step : String → α → Reader α) (empty : α) (text : String) : Option α :=
  match (fields step empty).run text.toList with
  | .ok (message, []) => some message
  | _ => none

/-! ## What is read -/

/-- **A reader takes exactly these characters**, whatever follows them, and
gives the value. -/
def Reads (r : Reader α) (s : List Char) (a : α) : Prop :=
  ∀ rest : List Char, r.run (s ++ rest) = .ok (a, rest)

namespace Reads

variable {s t : List Char} {a : α} {b : β}

/-- **Readers in sequence take their characters in sequence.** -/
theorem bind {first : Reader α} {next : α → Reader β} (hfirst : Reads first s a)
    (hnext : Reads (next a) t b) : Reads (first >>= next) (s ++ t) b := by
  intro rest
  rw [List.append_assoc, Consumer.run_bind_of_ok (hfirst (t ++ rest))]
  exact hnext rest

/-- A value that is only passed on takes no more. -/
theorem map {r : Reader α} (f : α → β) (h : Reads r s a) :
    Reads (r >>= fun x => pure (f x)) s (f a) := by
  intro rest
  rw [Consumer.run_bind_of_ok (h rest)]
  rfl

end Reads

theorem reads_expect (text : List Char) : Reads (expect text) text () := by
  intro rest
  have haccept : (Reader.accept text).run (text ++ rest) = .ok (true, rest) := by
    simp [Reader.accept, Reader.acceptAny]
  rw [expect, Consumer.run_bind_of_ok haccept]
  rfl

/-- Characters are taken up to the first that ends them. -/
theorem run_upTo {ends : Char → Bool} {s : List Char} (rest : List Char)
    (hs : ∀ c ∈ s, ends c = false) (hrest : ∀ c ∈ rest.head?, ends c = true) :
    (Reader.upTo ends).run (s ++ rest) = .ok (s, rest) := by
  have hpos : ∀ c ∈ s, (!ends c) = true := fun c hc => by rw [hs c hc]; rfl
  have hstop : rest.takeWhile (fun c => !ends c) = [] ∧
      rest.dropWhile (fun c => !ends c) = rest := by
    cases rest with
    | nil => exact ⟨rfl, rfl⟩
    | cons c rest => simp [hrest c rfl]
  simp only [Reader.upTo, List.takeWhile_append_of_pos hpos, List.dropWhile_append_of_pos hpos,
    hstop.1, hstop.2, List.append_nil]

theorem reads_line {s : List Char} (hs : '\n' ∉ s) : Reads line (s ++ ['\n']) s := by
  intro rest
  have hne : ∀ c ∈ s, decide (c = '\n') = false :=
    fun c hc => decide_eq_false fun heq => hs (heq ▸ hc)
  have hupTo := run_upTo ('\n' :: rest) hne (by simp)
  rw [List.append_assoc, line]
  exact (Consumer.run_bind_of_ok hupTo).trans ((reads_expect ['\n']).map (fun _ => s) rest)

/-- The value of a field is read back where it stands on one line. -/
theorem reads_scalar {ofText? : List Char → Option α} {s : List Char} {a : α}
    (hs : '\n' ∉ s) (h : ofText? s = some a) :
    Reads (scalar ofText?) (':' :: ' ' :: (s ++ ['\n'])) a := by
  refine (reads_expect [':', ' ']).bind (t := s ++ ['\n']) ?_
  intro rest
  rw [Consumer.run_bind_of_ok (reads_line hs rest), h]
  rfl

/-! ## Values -/

/-- Octets between quotes are on one line. -/
theorem newline_notMem_quotedBytes (b : Bytes) : '\n' ∉ Rendering.quotedBytes b := by
  intro h
  have hmem : '\n' ∈ Text.escape b := by simpa [Rendering.quotedBytes] using h
  exact Text.notMem_escape (by decide) hmem

@[simp] theorem quoted?_quotedBytes (b : Bytes) : quoted? (Rendering.quotedBytes b) = some b := by
  simp [Rendering.quotedBytes, quoted?]

@[simp] theorem string?_quotedText (s : String) : string? (Rendering.quotedText s) = some s := by
  simp [Rendering.quotedText, string?]

/-! ## The fields of a message -/

variable {step : String → α → Reader α} {message next result : α} {s t : List Char}

/-- **One field takes a message to another.** Its characters are blanks, a name,
and a value that does not begin like a name and is read by the step. -/
def Takes (step : String → α → Reader α) (message : α) (s : List Char) (next : α) : Prop :=
  ∃ (indent : Nat) (name : String) (value : List Char),
    s = List.replicate indent ' ' ++ (name.toList ++ value) ∧
      isName name = true ∧ (∃ c ∈ value.head?, isNameChar c = false) ∧
      Reads (step name message) value next

/-- **Some fields take a message to another**, one after the other. -/
inductive Folds (step : String → α → Reader α) : α → List Char → α → Prop where
  | nil (message : α) : Folds step message [] message
  | field {message next result : α} {s t : List Char} (hs : Takes step message s next)
      (ht : Folds step next t result) : Folds step message (s ++ t) result

theorem isName_iff {name : String} :
    isName name = true ↔ name.toList ≠ [] ∧ ∀ c ∈ name.toList, isNameChar c = true := by
  simp [isName]

/-- Blanks in front of something else are taken. -/
theorem run_blanks (indent : Nat) (rest : List Char) (hrest : ∀ c ∈ rest.head?, c ≠ ' ') :
    (Reader.upTo (· ≠ ' ')).run (List.replicate indent ' ' ++ rest) =
      .ok (List.replicate indent ' ', rest) := by
  refine run_upTo _ (fun c hc => ?_) (fun c hc => ?_)
  · rw [List.eq_of_mem_replicate hc]
    rfl
  · exact decide_eq_true (hrest c hc)

/-- A field is taken into the message. -/
theorem reads_field (h : Takes step message s next) :
    Reads (field step message) s (.inl next) := by
  obtain ⟨indent, name, value, rfl, hisName, ⟨c, hc, hend⟩, hreads⟩ := h
  obtain ⟨hne, hname⟩ := isName_iff.1 hisName
  obtain ⟨first, more, hcons⟩ := List.exists_cons_of_ne_nil hne
  intro rest
  have hfirst : first ≠ ' ' := by
    rintro rfl
    exact absurd (hname ' ' (hcons ▸ List.mem_cons_self)) (by decide)
  have hblanks := run_blanks indent (name.toList ++ (value ++ rest)) fun d hd => by
    rw [hcons] at hd
    exact Option.some.inj hd ▸ hfirst
  have hupTo : (Reader.upTo fun c => !isNameChar c).run (name.toList ++ (value ++ rest)) =
      .ok (name.toList, value ++ rest) := by
    refine run_upTo _ (fun d hd => ?_) (fun d hd => ?_)
    · rw [hname d hd]
      rfl
    · obtain ⟨_, hvalue⟩ := List.head?_eq_some_iff.1 hc
      rw [hvalue] at hd
      rw [← Option.some.inj hd, hend]
      rfl
  rw [field, List.append_assoc, List.append_assoc, Consumer.run_bind_of_ok hblanks,
    Consumer.run_bind_of_ok hupTo]
  have hofList : String.ofList (first :: more) = name := by rw [← hcons, String.ofList_toList]
  have hnext := hreads.map (Sum.inl : α → α ⊕ α) rest
  rw [← hofList] at hnext
  rw [hcons]
  exact hnext

/-- A message ends where nothing more comes, or a closing brace. -/
theorem run_field_end (step : String → α → Reader α) (message : α) (indent : Nat)
    {rest : List Char} (hrest : ∀ c ∈ rest.head?, c = '\x7d') :
    (field step message).run (List.replicate indent ' ' ++ rest) = .ok (.inr message, rest) := by
  have hblanks := run_blanks indent rest fun c hc => by
    rw [hrest c hc]
    decide
  have hname : (Reader.upTo fun c => !isNameChar c).run rest = .ok ([], rest) :=
    run_upTo (s := []) rest (by simp) fun c hc => by
      rw [hrest c hc]
      rfl
  rw [field, Consumer.run_bind_of_ok hblanks, Consumer.run_bind_of_ok hname]
  rfl

namespace Folds

/-- **The loop takes in just the fields** in front of a closing brace or the
end. -/
theorem run (h : Folds step message s result) (indent : Nat) (rest : List Char)
    (hrest : ∀ c ∈ rest.head?, c = '\x7d') :
    (fields step message).run (s ++ (List.replicate indent ' ' ++ rest)) = .ok (result, rest) := by
  change Consumer.runRounds () (TextFormat.field step) message _ = _
  induction h with
  | nil message => rw [Consumer.runRounds, List.nil_append, run_field_end step message indent hrest]
  | @field message next result s t hs _ ih =>
    have hfield := reads_field hs (t ++ (List.replicate indent ' ' ++ rest))
    have hpos : 0 < s.length := by
      obtain ⟨_, _, _, rfl, hisName, -⟩ := hs
      exact List.length_pos_iff.2 (by simp [(isName_iff.1 hisName).1])
    rw [List.append_assoc, Consumer.runRounds, hfield]
    dsimp only
    rw [if_pos (by simp only [Sized.size, List.length_append]; omega)]
    exact ih

/-- Fields behind others go on from where those led. -/
theorem append (hs : Folds step message s next) (ht : Folds step next t result) :
    Folds step message (s ++ t) result := by
  induction hs with
  | nil => exact ht
  | field hfield _ ih =>
    rw [List.append_assoc]
    exact field hfield (ih ht)

/-- A single field. -/
theorem single (h : Takes step message s result) : Folds step message s result := by
  have hfield := field h (nil result)
  rwa [List.append_nil] at hfield

/-- **A repeated field is taken in one value after the other.** The message is
given by the values that were taken in before. -/
theorem repeated {values : List β} {lines : β → List Char} (message : Array β → α)
    (htakes : ∀ (done : Array β), ∀ value ∈ values,
      Takes step (message done) (lines value) (message (done.push value))) :
    Folds step (message #[]) (values.flatMap lines) (message values.toArray) := by
  -- the values still to come are taken in on top of any that were
  have hfrom : ∀ (left done : List β), done ++ left = values →
      Folds step (message done.toArray) (left.flatMap lines) (message values.toArray) := by
    intro left
    induction left with
    | nil =>
      intro done hdone
      obtain rfl : done = values := by simpa using hdone
      exact nil _
    | cons value left ih =>
      intro done hdone
      have hvalue := htakes done.toArray value (by simp [← hdone])
      rw [List.push_toArray] at hvalue
      rw [List.flatMap_cons]
      exact field hvalue (ih (done ++ [value]) (by simp [← hdone]))
  exact hfrom values [] rfl

end Folds

/-- **A nested message is read back** as far as its fields are. -/
theorem reads_nested {empty : α} (indent : Nat) (h : Folds step empty s message) :
    Reads (nested step empty)
      (' ' :: '\x7b' :: '\n' :: (s ++ (List.replicate indent ' ' ++ ['\x7d', '\n']))) message := by
  refine (reads_expect [' ', '\x7b', '\n']).bind
    (t := s ++ (List.replicate indent ' ' ++ ['\x7d', '\n'])) ?_
  intro rest
  have hfields := h.run indent ('\x7d' :: '\n' :: rest) (by simp)
  have hassoc : s ++ (List.replicate indent ' ' ++ ['\x7d', '\n']) ++ rest =
      s ++ (List.replicate indent ' ' ++ ('\x7d' :: '\n' :: rest)) := by simp
  rw [hassoc, Consumer.run_bind_of_ok hfields]
  exact (reads_expect ['\x7d', '\n']).map (fun _ => message) rest

/-- A message is read from a text that is its fields. -/
theorem read?_ofList {empty : α} (h : Folds step empty s message) :
    read? step empty (String.ofList s) = some message := by
  have hrun := h.run 0 [] (by simp)
  rw [List.replicate_zero, List.nil_append, List.append_nil] at hrun
  rw [read?, String.toList_ofList, hrun]

/-! ## The lines of a rendering -/

/-- A line with a field is taken in when its value is read back. -/
theorem takes_fieldLine {name : String} {value : List Char} {a : β} {ofText? : List Char → Option β}
    (indent : Nat) (f : β → α) (hname : isName name = true)
    (hstep : step name message = (do return f (← scalar ofText?)))
    (hline : '\n' ∉ value) (h : ofText? value = some a) :
    Takes step message (Rendering.fieldLine indent name value) (f a) := by
  refine ⟨indent, name, _, rfl, hname, ⟨':', rfl, rfl⟩, ?_⟩
  rw [hstep]
  exact (reads_scalar hline h).map f

/-- A block is taken in when the message in it is read back. -/
theorem takes_block {name : String} {inner : String → β → Reader β} {empty value : β}
    (indent : Nat) (f : β → α) (hname : isName name = true)
    (hstep : step name message = (do return f (← nested inner empty)))
    (h : Folds inner empty s value) :
    Takes step message (Rendering.block indent name s) (f value) := by
  refine ⟨indent, name, _, rfl, hname, ⟨' ', rfl, rfl⟩, ?_⟩
  rw [hstep]
  exact (reads_nested indent h).map f

end TextFormat

end AggregatedRecords
