import Overprint.Notation.Reader
import Overprint.Proofs.Notation.Value
import Overprint.Proofs.Success

/-!
# What readers accept

A reader is told by the values it accepts and by what it makes of them: `Reads` says that it succeeds
on the tokens of such a value, leaves what follows them, and succeeds on nothing else. This chapter is
about the readers of single values; records have one of their own.
-/

namespace Overprint.Notation

open Outcome

variable {α : Type}

/-- The reader accepts the tokens of those values that mean something, and what it makes of a value
is what the value means. -/
def Reads (reader : Reader α) (Means : Value → α → Prop) : Prop :=
  ∀ (tokens : List Token) (result : α) (rest : List Token),
    reader tokens = .ok (result, rest) ↔
      ∃ value, Means value result ∧ tokens = value.tokens ++ rest

namespace Reader

theorem skip_eq_ok {expected : Token} {tokens rest : List Token} :
    skip expected tokens = .ok rest ↔ tokens = expected :: rest := by
  cases tokens with
  | nil => simp [skip]
  | cons token tail =>
    by_cases heq : token = expected
    · simp [skip, heq]
    · simp [skip, heq]

/-- A reader of one token accepts the values that are that token alone. -/
theorem reads_single {value? : Token → Option α} {Means : Value → α → Prop}
    (hvalue : ∀ token result, value? token = some result ↔
      ∃ value, Means value result ∧ value.tokens = [token])
    (honly : ∀ value result, Means value result → ∃ token, value.tokens = [token]) :
    Reads (single value?) Means := by
  intro tokens result rest
  constructor
  · intro h
    cases tokens with
    | nil => cases h
    | cons token tail =>
      rw [single] at h
      cases hfound : value? token with
      | none =>
        rw [hfound] at h
        cases h
      | some found =>
        rw [hfound] at h
        cases h
        obtain ⟨value, hmeans, htokens⟩ := (hvalue token result).1 hfound
        exact ⟨value, hmeans, by rw [htokens, List.singleton_append]⟩
  · rintro ⟨value, hmeans, rfl⟩
    obtain ⟨token, htokens⟩ := honly value result hmeans
    rw [htokens, List.singleton_append, single, (hvalue token result).2 ⟨value, hmeans, htokens⟩]

theorem reads_text : Reads text fun value content => value = .text content := by
  refine reads_single (fun token result => ?_) fun value result hvalue => ⟨.text result, ?_⟩
  · cases token <;> simp [Value.tokens, eq_comm]
  · rw [hvalue, Value.tokens]

theorem reads_number : Reads number fun value content => value = .number content := by
  refine reads_single (fun token result => ?_) fun value result hvalue => ⟨.number result, ?_⟩
  · cases token <;> simp [Value.tokens, eq_comm]
  · rw [hvalue, Value.tokens]

theorem null_eq_ok {tokens rest : List Token} :
    null tokens = .ok ((), rest) ↔ tokens = .null :: rest := by
  cases tokens with
  | nil => simp [null, single]
  | cons token tail => cases token <;> simp [null, single]

def textOrNull : Option String → Value
  | some content => .text content
  | none => .null

theorem reads_optionalText : Reads optionalText fun value content? => value = textOrNull content? := by
  intro tokens result rest
  constructor
  · intro h
    rw [optionalText.eq_def] at h
    split at h
    · cases h
      exact ⟨.null, rfl, rfl⟩
    · obtain ⟨⟨content, tail⟩, htext, h⟩ := bind_eq_ok.1 h
      cases h
      obtain ⟨value, rfl, rfl⟩ := (reads_text _ _ _).1 htext
      exact ⟨.text content, rfl, rfl⟩
  · rintro ⟨value, rfl, rfl⟩
    cases result with
    | none => rfl
    | some content => rfl

/-- The value is the name of a choice, alone or as the key of an object with nothing in it. -/
def IsChoice (choices : List (String × α)) (value : Value) (choice : α) : Prop :=
  ∃ name, choices.lookup name = some choice ∧
    (value = .text name ∨ value = .object [(name, .null)])

theorem choiceName_eq_ok {choices : List (String × α)} {tokens rest : List Token} {choice : α} :
    choiceName choices tokens = .ok (choice, rest) ↔
      ∃ name, choices.lookup name = some choice ∧ tokens = .text name :: rest := by
  constructor
  · intro h
    obtain ⟨⟨name, tail⟩, htext, hchoice⟩ := bind_eq_ok.1 h
    obtain ⟨value, rfl, rfl⟩ := (reads_text _ _ _).1 htext
    dsimp only at hchoice
    split at hchoice
    next found hlookup =>
      cases hchoice
      exact ⟨name, hlookup, rfl⟩
    next => cases hchoice
  · rintro ⟨name, hlookup, rfl⟩
    refine bind_eq_ok.2 ⟨(name, rest), (reads_text _ _ _).2 ⟨.text name, rfl, rfl⟩, ?_⟩
    simp only [hlookup]
    rfl

theorem reads_choice (choices : List (String × α)) :
    Reads (choice choices) (IsChoice choices) := by
  intro tokens result rest
  constructor
  · intro h
    rw [choice.eq_def] at h
    split at h
    · cases h
    · obtain ⟨⟨found, afterName⟩, hname, h⟩ := bind_eq_ok.1 h
      obtain ⟨afterColon, hcolon, h⟩ := bind_eq_ok.1 h
      obtain ⟨⟨⟨⟩, afterNull⟩, hnull, h⟩ := bind_eq_ok.1 h
      obtain ⟨tail, hclose, h⟩ := bind_eq_ok.1 h
      cases h
      obtain ⟨name, hlookup, rfl⟩ := choiceName_eq_ok.1 hname
      cases skip_eq_ok.1 hcolon
      cases null_eq_ok.1 hnull
      cases skip_eq_ok.1 hclose
      exact ⟨.object [(name, .null)], ⟨name, hlookup, .inr rfl⟩, rfl⟩
    · split at h
      · obtain ⟨name, hlookup, htokens⟩ := choiceName_eq_ok.1 h
        exact ⟨.text name, ⟨name, hlookup, .inl rfl⟩, htokens⟩
      · obtain ⟨name, hlookup, htokens⟩ := choiceName_eq_ok.1 h
        cases htokens
      · cases h
  · rintro ⟨value, ⟨name, hlookup, rfl | rfl⟩, rfl⟩
    · exact choiceName_eq_ok.2 ⟨name, hlookup, rfl⟩
    · refine bind_eq_ok.2 ⟨(result, _), choiceName_eq_ok.2 ⟨name, hlookup, rfl⟩, ?_⟩
      refine bind_eq_ok.2 ⟨_, skip_eq_ok.2 rfl, ?_⟩
      refine bind_eq_ok.2 ⟨((), _), null_eq_ok.2 rfl, ?_⟩
      exact bind_eq_ok.2 ⟨rest, skip_eq_ok.2 rfl, rfl⟩

/-- A whole text is read if its tokens are those of a value that means something. -/
theorem whole_eq_ok {reader : Reader α} {Means : Value → α → Prop} (hreads : Reads reader Means)
    {text : String} {result : α} :
    whole reader text = .ok result ↔
      ∃ value, Means value result ∧ Token.ofText text = value.tokens := by
  constructor
  · intro h
    obtain ⟨⟨found, rest⟩, hread, h⟩ := bind_eq_ok.1 h
    obtain ⟨value, hmeans, htokens⟩ := (hreads _ _ _).1 hread
    dsimp only at h
    split at h
    next hrest =>
      cases h
      exact ⟨value, hmeans, by rw [htokens, hrest, List.append_nil]⟩
    next => cases h
  · rintro ⟨value, hmeans, htokens⟩
    refine bind_eq_ok.2 ⟨(result, []), (hreads _ _ _).2 ⟨value, hmeans, ?_⟩, rfl⟩
    rw [htokens, List.append_nil]

end Reader

end Overprint.Notation
