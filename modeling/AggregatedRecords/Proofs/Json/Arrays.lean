import AggregatedRecords.Proofs.Json.Values
/-!
# JSON — arrays of values of a single token

An array whose items are single tokens is taken token by token
(`Decoder.runItems_of_ok`). What is taken of it are the tokens of items that all
have a reading (`Decoder.takes_items`), so an array is taken exactly as the document
that it is (`Decoder.takes_array`).
-/

namespace AggregatedRecords

namespace Json

namespace Decoder

open Document

variable {α : Type} {value : Token → Except Error α} {read : Document → Option α}

/-- One more item is taken, which is not the end of the array. -/
theorem runItems_of_ok {isFirst : Bool} {reversed : List α} {token : Token} {rest : List Token}
    {a : α} (hclose : token ≠ .closeBracket) (h : value token = .ok a) :
    runItems value isFirst reversed ((if isFirst then [] else [.comma]) ++ token :: rest) =
      runItems value false (a :: reversed) rest := by
  have hseparator : (separator isFirst).run
      ((if isFirst then [] else [.comma]) ++ token :: rest) = .ok ((), token :: rest) :=
    run_separator_eq_ok_iff.2 rfl
  have hvalue : (one value).run (token :: rest) = .ok (a, rest) :=
    run_one_eq_ok_iff.2 ⟨token, rfl, h⟩
  rw [runItems.eq_2]
  · split
    · next he => cases hseparator.symm.trans he
    · next hs =>
      cases hseparator.symm.trans hs
      split
      · next he => cases hvalue.symm.trans he
      · next hv =>
        cases hvalue.symm.trans hv
        rfl
  · cases isFirst <;> simp [hclose]

/-- **Items are taken** if each of them is a token that is. -/
theorem takes_items (h : TakesToken value read) :
    Takes (items value) (closedItems true) fun documents => documents.mapM read where
  sound {tokens as rest} hrun := by
    have hall : ∀ isFirst reversed tokens, runItems value isFirst reversed tokens = .ok (as, rest) →
        ∃ front documents, tokens = front ++ rest ∧
          front.map Token.mended = closedItems isFirst documents ∧
            (documents.mapM read).map (reversed.reverse ++ ·) = some as := by
      intro isFirst reversed tokens hrun
      fun_induction runItems value isFirst reversed tokens with
      | case1 isFirst reversed tokens =>
        cases hrun
        refine ⟨[.closeBracket], [], rfl, ?_, by simp⟩
        cases isFirst <;> rfl
      | case2 => cases hrun
      | case3 => cases hrun
      | case4 isFirst reversed tokens _ unread hseparator a rest' hvalue ih =>
        obtain ⟨front, documents, rfl, hfront, hmapM⟩ := ih hrun
        obtain ⟨taken, x, rfl, htaken, hx⟩ := h.takes.sound hvalue
        obtain rfl := run_separator_eq_ok_iff.1 hseparator
        refine ⟨(if isFirst then [] else [.comma]) ++ (taken ++ front), x :: documents,
          by simp, ?_, ?_⟩
        · rw [closedItems_cons, List.map_append, List.map_append, htaken, hfront]
          cases isFirst <;> rfl
        · obtain ⟨as', has', rfl⟩ := Option.map_eq_some_iff.1 hmapM
          simp [List.mapM_cons, hx, has']
    obtain ⟨front, documents, hfront, hshape, hmapM⟩ := hall true [] tokens hrun
    exact ⟨front, documents, hfront, hshape, by simpa using hmapM⟩
  complete {documents as} hread rest := by
    have hall : ∀ documents isFirst reversed as, documents.mapM read = some as →
        runItems value isFirst reversed (closedItems isFirst documents ++ rest) =
          .ok (reversed.reverse ++ as, rest) := by
      intro documents
      induction documents with
      | nil =>
        intro isFirst reversed as hread
        rw [List.mapM_nil] at hread
        cases hread
        rw [List.append_nil]
        cases isFirst <;> exact runItems.eq_1 ..
      | cons x documents ih =>
        intro isFirst reversed as hread
        simp only [List.mapM_cons, Option.bind_eq_bind, Option.bind_eq_some_iff] at hread
        obtain ⟨a, hx, as', has', hvalue⟩ := hread
        cases hvalue
        obtain ⟨token, htoken⟩ := h.isSingle hx
        have hok : value token = .ok a := by
          rw [← toOption_eq_some_iff, h.toOption_eq, htoken, Option.bind_some, hx]
        have hclose : token ≠ .closeBracket := by
          rintro rfl
          cases htoken
        rw [closedItems_cons, tokens_of_ofToken? htoken, List.append_assoc, List.append_assoc,
          List.singleton_append, runItems_of_ok hclose hok, ih false (a :: reversed) as' has']
        simp
    exact hall documents true [] as hread

/-- **An array is taken** as the document that it is. -/
theorem takes_array (h : TakesToken value read) :
    Takes (array value) Document.tokens (array? read) where
  sound {tokens as rest} hrun := by
    obtain ⟨token, mid, hpeek, hmore⟩ := Consumer.run_bind_eq_ok_iff.1 hrun
    obtain ⟨rfl, -⟩ := run_peek_eq_ok_iff.1 hpeek
    split at hmore
    · obtain ⟨front, documents, hfront, hshape, hread⟩ := ((takes_items h).behind rfl).sound hmore
      exact ⟨front, .array documents, hfront, hshape, hread⟩
    · obtain ⟨_, -, hreject⟩ := run_one_eq_ok_iff.1 hmore
      exact absurd hreject reject_ne_ok
  complete {x as} hread rest := by
    cases x with
    | array documents =>
      have hopen : Token.mended .openBracket = .openBracket := rfl
      exact ((takes_items h).behind hopen).complete hread rest
    | _ => cases hread

end Decoder

end Json

end AggregatedRecords
