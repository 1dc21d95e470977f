import Overprint.Notation.Token

/-!
# Values of JSON texts

What a JSON text says, apart from blanks and escapes: a value, whose objects have their members in the
order in which they are written, names that occur several times included. A value has its tokens, and
where it ends is seen from the tokens alone: no two values start the same tokens.
-/

namespace Overprint.Notation

/-- A value of a JSON text. -/
inductive Value where
  | null
  | boolean (value : Bool)
  | number (value : Numeric)
  | text (value : String)
  | list (items : List Value)
  | object (members : List (String × Value))

namespace Value

/-- What stands in front of an item or a member. -/
def separator (first : Bool) : List Token :=
  if first then [] else [.comma]

mutual

def tokens : Value → List Token
  | null => [.null]
  | boolean value => [.boolean value]
  | number value => [.number value]
  | text value => [.text value]
  | list items => .openList :: itemTokens true items
  | object members => .openObject :: memberTokens true members

/-- The tokens of the items of a list to its end. -/
def itemTokens (first : Bool) : List Value → List Token
  | [] => [.closeList]
  | item :: rest => separator first ++ (item.tokens ++ itemTokens false rest)

/-- The tokens of the members of an object to its end. -/
def memberTokens (first : Bool) : List (String × Value) → List Token
  | [] => [.closeObject]
  | (name, value) :: rest =>
    separator first ++ .text name :: .colon :: (value.tokens ++ memberTokens false rest)

end

theorem tokens_ne_closeList (value : Value) (rest tail : List Token) :
    value.tokens ++ rest ≠ .closeList :: tail := by
  cases value <;> simp [tokens]

mutual

/-- Two values with tokens that start the same tokens are one, and what follows them is the same. -/
theorem tokens_append_inj : ∀ {value other : Value} {rest tail : List Token},
    value.tokens ++ rest = other.tokens ++ tail → value = other ∧ rest = tail
  | null, other, rest, tail, h => by cases other <;> simp_all [tokens]
  | boolean _, other, rest, tail, h => by cases other <;> simp_all [tokens]
  | number _, other, rest, tail, h => by cases other <;> simp_all [tokens]
  | text _, other, rest, tail, h => by cases other <;> simp_all [tokens]
  | list items, other, rest, tail, h => by
    cases other with
    | list others =>
      obtain ⟨rfl, rfl⟩ := itemTokens_append_inj (List.cons.inj h).2
      exact ⟨rfl, rfl⟩
    | _ => simp [tokens] at h
  | object members, other, rest, tail, h => by
    cases other with
    | object others =>
      obtain ⟨rfl, rfl⟩ := memberTokens_append_inj (List.cons.inj h).2
      exact ⟨rfl, rfl⟩
    | _ => simp [tokens] at h

theorem itemTokens_append_inj : ∀ {first : Bool} {items others : List Value}
    {rest tail : List Token},
    itemTokens first items ++ rest = itemTokens first others ++ tail → items = others ∧ rest = tail
  | first, [], [], rest, tail, h => ⟨rfl, (List.cons.inj h).2⟩
  | first, [], other :: others, rest, tail, h => by
    exfalso
    cases first with
    | true =>
      refine tokens_ne_closeList other (itemTokens false others ++ tail) rest ?_
      rw [← List.append_assoc]
      exact h.symm
    | false => simp [itemTokens, separator] at h
  | first, item :: items, [], rest, tail, h => by
    exfalso
    cases first with
    | true =>
      refine tokens_ne_closeList item (itemTokens false items ++ rest) tail ?_
      rw [← List.append_assoc]
      exact h
    | false => simp [itemTokens, separator] at h
  | first, item :: items, other :: others, rest, tail, h => by
    simp only [itemTokens, List.append_assoc, List.append_cancel_left_eq] at h
    obtain ⟨rfl, hrest⟩ := tokens_append_inj h
    obtain ⟨rfl, rfl⟩ := itemTokens_append_inj hrest
    exact ⟨rfl, rfl⟩

theorem memberTokens_append_inj : ∀ {first : Bool} {members others : List (String × Value)}
    {rest tail : List Token},
    memberTokens first members ++ rest = memberTokens first others ++ tail →
      members = others ∧ rest = tail
  | first, [], [], rest, tail, h => ⟨rfl, (List.cons.inj h).2⟩
  | first, [], (name, value) :: others, rest, tail, h => by
    cases first <;> simp [memberTokens, separator] at h
  | first, (name, value) :: members, [], rest, tail, h => by
    cases first <;> simp [memberTokens, separator] at h
  | first, (name, value) :: members, (other, found) :: others, rest, tail, h => by
    simp only [memberTokens, List.append_assoc, List.cons_append, List.append_cancel_left_eq,
      List.cons.injEq, Token.text.injEq, true_and] at h
    obtain ⟨rfl, h⟩ := h
    obtain ⟨rfl, hrest⟩ := tokens_append_inj h
    obtain ⟨rfl, rfl⟩ := memberTokens_append_inj hrest
    exact ⟨rfl, rfl⟩

end

theorem tokens_injective {value other : Value} (heq : value.tokens = other.tokens) :
    value = other :=
  (tokens_append_inj (congrArg (· ++ []) heq)).1

end Value

end Overprint.Notation
