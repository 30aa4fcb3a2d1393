import Courier.Proofs.Json.Lexing

/-!
# Trees out of tokens

The tokens of a tree are put together to that tree again, whatever is open around it and whatever
comes behind it.
-/

namespace Courier.Json

namespace Assembly

variable (stack : List Frame) (toks : List Token)

theorem feedAll?_cons (a : Assembly) (tok : Token) :
    a.feedAll? (tok :: toks) = (a.feed? tok).bind fun a => a.feedAll? toks := rfl

/-- What begins a value does not close an array. -/
theorem tokens_eq_cons (t : Tree) :
    ∃ tok rest, t.tokens = tok :: rest ∧ tok ≠ .closeArray := by
  cases t with
  | null => exact ⟨_, _, rfl, nofun⟩
  | bool b => exact ⟨_, _, rfl, nofun⟩
  | number n => exact ⟨_, _, rfl, nofun⟩
  | text ps => exact ⟨_, _, rfl, nofun⟩
  | array items => exact ⟨_, _, rfl, nofun⟩
  | object fields => exact ⟨_, _, rfl, nofun⟩

theorem feedAll?_firstItem (t : Tree) :
    (firstItem stack).feedAll? (t.tokens ++ toks) =
      (value (.array [] :: stack)).feedAll? (t.tokens ++ toks) := by
  obtain ⟨tok, rest, htokens, hne⟩ := tokens_eq_cons t
  have hfeed : (firstItem stack).feed? tok = (value (.array [] :: stack)).feed? tok := by
    cases tok with
    | closeArray => exact absurd rfl hne
    | _ => rfl
  rw [htokens, List.cons_append, feedAll?_cons, feedAll?_cons, hfeed]

theorem feedAll?_firstItem_itemTokens {items : List Tree} (h : items ≠ []) :
    (firstItem stack).feedAll? (Tree.itemTokens items ++ toks) =
      (value (.array [] :: stack)).feedAll? (Tree.itemTokens items ++ toks) := by
  match items with
  | [] => exact absurd rfl h
  | [t] =>
    rw [Tree.itemTokens, List.append_assoc]
    exact feedAll?_firstItem stack _ t
  | t :: u :: rest =>
    rw [Tree.itemTokens, List.append_assoc]
    · exact feedAll?_firstItem stack _ t
    · exact nofun

theorem feedAll?_firstKey_fieldTokens {fields : List (List Piece × Tree)} (h : fields ≠ []) :
    (firstKey stack).feedAll? (Tree.fieldTokens fields ++ toks) =
      (nextKey [] stack).feedAll? (Tree.fieldTokens fields ++ toks) := by
  match fields with
  | [] => exact absurd rfl h
  | [(key, t)] => rfl
  | (key, t) :: p :: rest => rfl

mutual

theorem feedAll?_tokens (stack : List Frame) (toks : List Token) (t : Tree) :
    (value stack).feedAll? (t.tokens ++ toks) = (after t stack).feedAll? toks := by
  cases t with
  | null => rfl
  | bool b => rfl
  | number n => rfl
  | text ps => rfl
  | array items =>
    by_cases h : items = []
    · rw [h]
      rfl
    · exact (feedAll?_firstItem_itemTokens stack toks h).trans
        (feedAll?_itemTokens [] stack toks items h)
  | object fields =>
    by_cases h : fields = []
    · rw [h]
      rfl
    · exact (feedAll?_firstKey_fieldTokens stack toks h).trans
        (feedAll?_fieldTokens [] stack toks fields h)

theorem feedAll?_itemTokens (done : List Tree) (stack : List Frame) (toks : List Token)
    (items : List Tree) (h : items ≠ []) :
    (value (.array done :: stack)).feedAll? (Tree.itemTokens items ++ toks) =
      (after (.array (done.reverse ++ items)) stack).feedAll? toks := by
  match items with
  | [] => exact absurd rfl h
  | [t] =>
    rw [Tree.itemTokens, List.append_assoc, feedAll?_tokens, List.singleton_append, feedAll?_cons]
    simp [feed?, continue?]
  | t :: u :: rest =>
    have hrest := feedAll?_itemTokens (t :: done) stack toks (u :: rest) nofun
    rw [List.reverse_cons, List.append_assoc] at hrest
    rw [Tree.itemTokens, List.append_assoc, feedAll?_tokens, List.cons_append, feedAll?_cons]
    · exact hrest
    · exact nofun

theorem feedAll?_fieldTokens (done : List (List Piece × Tree)) (stack : List Frame)
    (toks : List Token) (fields : List (List Piece × Tree)) (h : fields ≠ []) :
    (nextKey done stack).feedAll? (Tree.fieldTokens fields ++ toks) =
      (after (.object (done.reverse ++ fields)) stack).feedAll? toks := by
  match fields with
  | [] => exact absurd rfl h
  | [(key, t)] =>
    have ht := feedAll?_tokens (.object done key :: stack) (.closeObject :: toks) t
    simp only [Tree.fieldTokens, List.cons_append, List.append_assoc, List.nil_append]
    refine Eq.trans ht ?_
    simp [feedAll?_cons, feed?, continue?]
  | (key, t) :: p :: rest =>
    have ht := feedAll?_tokens (.object done key :: stack)
      (.comma :: (Tree.fieldTokens (p :: rest) ++ toks)) t
    have hrest := feedAll?_fieldTokens ((key, t) :: done) stack toks (p :: rest) nofun
    rw [List.reverse_cons, List.append_assoc] at hrest
    simp only [Tree.fieldTokens, List.cons_append, List.append_assoc]
    exact ht.trans hrest

end

end Assembly

namespace Tree

theorem ofTokens?_tokens (t : Tree) : ofTokens? t.tokens = some t := by
  have h := Assembly.feedAll?_tokens [] [] t
  rw [List.append_nil] at h
  rw [ofTokens?, h]
  rfl

/-- A printed object is read as its tree. -/
theorem ofBytes?_object {fields : List (String × Json)} (h : FieldsWhole fields) :
    ofBytes? (Json.object fields).bytes = some (Json.object fields).tree := by
  rw [ofBytes?, tokens?_object h, Option.bind_some, ofTokens?_tokens]

end Tree

end Courier.Json
