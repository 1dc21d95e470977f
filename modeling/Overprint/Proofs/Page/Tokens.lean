import Mathlib.Data.List.Induction
import Mathlib.Data.List.TakeWhile
import Mathlib.Data.Nat.Digits.Defs
import Overprint.Proofs.Page.Partition

/-!
# What page tokens mean

A token without a dash denotes a page, a token with one a range between what stands before and after
its first dash, either of which may be blank. A list of tokens can be read if each of them denotes
something, and selects the pages of the document that one of them covers; so neither their order nor
their number counts. Marking the pages of each token one by one comes to the same, and never looks for
a page that the document does not have.
-/

namespace Overprint.Page

open Number Script

/-- The characters spell a number: decimal digits after an optional plus sign and between blanks, in
sixty-four bits. -/
def Spells (cs : List Char) (number : Nat) : Prop :=
  ∃ left sign digits right, cs = left ++ (sign ++ digits) ++ right ∧
    (∀ c ∈ left, Text.isBlank c) ∧ (∀ c ∈ right, Text.isBlank c) ∧
    (sign = [] ∨ sign = ['+']) ∧ digits ≠ [] ∧ (∀ d ∈ digits, d.isDigit) ∧
    number = Nat.ofDigits 10 (digits.reverse.map fun d => d.toNat - '0'.toNat) ∧ number < 2 ^ 64

/-- Where a range starts whose part before the dash is given. -/
def Opens (before : List Char) (first : Nat) : Prop :=
  (∀ c ∈ before, Text.isBlank c) ∧ first = 1 ∨ Spells before first ∧ 1 ≤ first

/-- Where a range ends whose part after the dash is given, if it has an end of its own. -/
def Closes (after : List Char) (last? : Option Nat) : Prop :=
  (∀ c ∈ after, Text.isBlank c) ∧ last? = none ∨
    ∃ last, Spells after last ∧ 1 ≤ last ∧ last? = some last

/-- What a token stands for in a document of so many pages. -/
inductive Denotes (pageCount : Nat) (token : List Char) : Span → Prop where
  | page {number : Nat} (hdash : '-' ∉ token) (hspells : Spells token number) (hfirst : 1 ≤ number)
      (hlast : number ≤ pageCount) : Denotes pageCount token ⟨number, some number⟩
  | range {before after : List Char} {first : Nat} {last? : Option Nat}
      (htoken : token = before ++ '-' :: after) (hdash : '-' ∉ before) (hopens : Opens before first)
      (hcloses : Closes after last?) (hforward : ∀ last ∈ last?, first ≤ last) :
      Denotes pageCount token ⟨first, last?⟩

section Numbers

theorem digitsValue_eq (digits : List Char) : Numeral.digitsValue digits =
    Nat.ofDigits 10 (digits.reverse.map fun d => d.toNat - '0'.toNat) := by
  induction digits using List.reverseRecOn with
  | nil => rfl
  | append_singleton digits d ih =>
    rw [Numeral.digitsValue, List.foldl_append, ← Numeral.digitsValue, ih, List.reverse_append,
      List.reverse_singleton, List.singleton_append, List.map_cons, Nat.ofDigits_cons]
    simp only [List.foldl_cons, List.foldl_nil]
    omega

theorem natural?_eq_some_iff {digits : List Char} {number : Nat} :
    Numeral.natural? digits = some number ↔ digits ≠ [] ∧ (∀ d ∈ digits, d.isDigit) ∧
      number = Nat.ofDigits 10 (digits.reverse.map fun d => d.toNat - '0'.toNat) := by
  rw [Numeral.natural?, ← digitsValue_eq]
  by_cases hdigits : digits ≠ [] ∧ digits.all Char.isDigit
  · obtain ⟨hne, hall⟩ := hdigits
    rw [if_pos ⟨hne, hall⟩, Option.some.injEq, and_iff_right hne,
      and_iff_right (List.all_eq_true.1 hall), eq_comm]
  · rw [if_neg hdigits]
    rw [List.all_eq_true] at hdigits
    simp only [reduceCtorEq, ← and_assoc, hdigits, false_and]

theorem not_isBlank_of_isDigit {c : Char} (hdigit : c.isDigit) : ¬ Text.isBlank c := by
  have hcode : 48 ≤ c.toNat ∧ c.toNat ≤ 57 := by
    simpa [Char.isDigit, UInt32.le_iff_toNat_le] using hdigit
  simp [Text.isBlank, Text.blank, Text.CodeSet.contains]
  omega

theorem Spells.trim {cs : List Char} {number : Nat} (hspells : Spells cs number) :
    ∃ sign digits, Text.trim cs = sign ++ digits ∧ (sign = [] ∨ sign = ['+']) ∧
      Numeral.natural? digits = some number := by
  obtain ⟨left, sign, digits, right, rfl, hleft, hright, hsign, hne, hdigits, hnumber, -⟩ := hspells
  refine ⟨sign, digits, Text.trim_append hleft (fun c hmem => ?_) hright, hsign,
    natural?_eq_some_iff.2 ⟨hne, hdigits, hnumber⟩⟩
  rcases List.mem_append.1 hmem with hmem | hmem
  · rcases hsign with rfl | rfl
    · cases hmem
    · cases List.mem_singleton.1 hmem
      decide
  · exact not_isBlank_of_isDigit (hdigits c hmem)

theorem Spells.not_blank {cs : List Char} {number : Nat} (hspells : Spells cs number) :
    ¬ ∀ c ∈ cs, Text.isBlank c := by
  intro hblank
  obtain ⟨sign, digits, htrim, -, hnatural⟩ := hspells.trim
  rw [Text.trim_eq_nil_iff.2 hblank, eq_comm, List.append_eq_nil_iff] at htrim
  exact (natural?_eq_some_iff.1 hnatural).1 htrim.2

theorem Spells.lt {cs : List Char} {number : Nat} (hspells : Spells cs number) :
    number < 2 ^ 64 := by
  obtain ⟨_, _, _, _, _, _, _, _, _, _, _, hlt⟩ := hspells
  exact hlt

/-- The number that a text spells is what is read after it was trimmed. -/
theorem spells_iff {cs : List Char} {number : Nat} : Spells cs number ↔
    (∃ sign digits, Text.trim cs = sign ++ digits ∧ (sign = [] ∨ sign = ['+']) ∧
      Numeral.natural? digits = some number) ∧ number < 2 ^ 64 := by
  refine ⟨fun hspells => ⟨hspells.trim, hspells.lt⟩, ?_⟩
  rintro ⟨⟨sign, digits, htrim, hsign, hnatural⟩, hlt⟩
  obtain ⟨left, right, hcs, hleft, hright⟩ := Text.exists_trim cs
  obtain ⟨hne, hdigits, hnumber⟩ := natural?_eq_some_iff.1 hnatural
  rw [htrim] at hcs
  exact ⟨left, sign, digits, right, hcs, hleft, hright, hsign, hne, hdigits, hnumber, hlt⟩

theorem pageNumber?_eq_some_iff {cs : List Char} {number : Nat} :
    Span.pageNumber? cs = some number ↔ Spells cs number ∧ 1 ≤ number := by
  have hinside (natural? : Option Nat) : (do
      let value ← natural?
      if 1 ≤ value ∧ value < 0x10000000000000000 then some value else none) = some number ↔
        natural? = some number ∧ 1 ≤ number ∧ number < 2 ^ 64 := by
    cases natural? with
    | none => simp
    | some value =>
      simp only [Option.bind_eq_bind, Option.bind_some, Option.ite_none_right_eq_some,
        Option.some.injEq]
      constructor
      · rintro ⟨hvalue, rfl⟩
        exact ⟨rfl, by omega⟩
      · rintro ⟨rfl, hvalue⟩
        exact ⟨by omega, rfl⟩
  rw [Span.pageNumber?, spells_iff]
  split
  next digits htrim =>
    rw [hinside, htrim]
    constructor
    · rintro ⟨hnatural, hfirst, hlast⟩
      exact ⟨⟨⟨['+'], digits, rfl, .inr rfl, hnatural⟩, hlast⟩, hfirst⟩
    · rintro ⟨⟨⟨sign, rest, hcons, hsign, hnatural⟩, hlast⟩, hfirst⟩
      rcases hsign with rfl | rfl
      · rw [List.nil_append] at hcons
        have hplus := (natural?_eq_some_iff.1 hnatural).2.1 '+' (hcons ▸ List.mem_cons_self)
        cases hplus
      · rw [List.singleton_append, List.cons.injEq] at hcons
        rw [hcons.2]
        exact ⟨hnatural, hfirst, hlast⟩
  next hplus =>
    rw [hinside]
    constructor
    · rintro ⟨hnatural, hfirst, hlast⟩
      exact ⟨⟨⟨[], _, rfl, .inl rfl, hnatural⟩, hlast⟩, hfirst⟩
    · rintro ⟨⟨⟨sign, rest, hcons, hsign, hnatural⟩, hlast⟩, hfirst⟩
      rcases hsign with rfl | rfl
      · rw [List.nil_append] at hcons
        rw [hcons]
        exact ⟨hnatural, hfirst, hlast⟩
      · exact absurd hcons (hplus rest)

theorem number_eq_ok_iff (token : String) {part : List Char} {number : Nat} :
    Span.number token part = .ok number ↔ Spells part number ∧ 1 ≤ number := by
  rw [← pageNumber?_eq_some_iff, Span.number]
  cases Span.pageNumber? part <;> simp

end Numbers

section Tokens

theorem takeWhile_dash {before : List Char} (hdash : '-' ∉ before) (after : List Char) :
    (before ++ '-' :: after).takeWhile (· ≠ '-') = before := by
  have hbefore : ∀ c ∈ before, decide (c ≠ '-') = true := fun c hmem =>
    decide_eq_true fun heq => hdash (heq ▸ hmem)
  rw [List.takeWhile_append_of_pos hbefore, List.takeWhile_cons_of_neg (by simp), List.append_nil]

theorem dropWhile_dash {before : List Char} (hdash : '-' ∉ before) (after : List Char) :
    (before ++ '-' :: after).dropWhile (· ≠ '-') = '-' :: after := by
  have hbefore : ∀ c ∈ before, decide (c ≠ '-') = true := fun c hmem =>
    decide_eq_true fun heq => hdash (heq ▸ hmem)
  rw [List.dropWhile_append_of_pos hbefore, List.dropWhile_cons_of_neg (by simp)]

theorem dropWhile_no_dash {cs : List Char} (hdash : '-' ∉ cs) : cs.dropWhile (· ≠ '-') = [] :=
  List.dropWhile_eq_nil_iff.2 fun _ hmem => decide_eq_true fun heq => hdash (heq ▸ hmem)

variable {pageCount : Nat} {token : String} {span : Span}

theorem read_of_no_dash (hdash : '-' ∉ token.toList) : Span.read pageCount token = do
    let page ← Span.number token token.toList
    if pageCount < page then .error (.pageAbsent page pageCount)
    else return ⟨page, some page⟩ := by
  rw [Span.read, dropWhile_no_dash hdash]

theorem read_of_dash {before after : List Char} (htoken : token.toList = before ++ '-' :: after)
    (hdash : '-' ∉ before) : Span.read pageCount token =
      ((if Text.trim before = [] then .ok 1 else Span.number token before : Outcome Nat) >>=
        fun first => if Text.trim after = [] then .ok ⟨first, none⟩
        else Span.number token after >>= fun last =>
          if last < first then .error (.reversedRange token) else .ok ⟨first, some last⟩) := by
  rw [Span.read, htoken, dropWhile_dash hdash, takeWhile_dash hdash]
  by_cases hblank : Text.trim before = []
  · simp only [if_pos hblank]
    rfl
  · simp only [if_neg hblank]
    rfl

theorem opens_iff (token : String) {before : List Char} {first : Nat} :
    (if Text.trim before = [] then .ok 1 else Span.number token before : Outcome Nat) = .ok first ↔
      Opens before first := by
  rw [Opens, ← number_eq_ok_iff token, ← Text.trim_eq_nil_iff]
  by_cases hblank : Text.trim before = []
  · have hnumber : ¬ Span.number token before = .ok first := fun hnumber =>
      ((number_eq_ok_iff token).1 hnumber).1.not_blank (Text.trim_eq_nil_iff.1 hblank)
    rw [if_pos hblank, and_iff_right hblank, or_iff_left hnumber]
    rw [Except.ok.injEq, eq_comm]
  · rw [if_neg hblank]
    simp only [hblank, false_and, false_or]

theorem read_eq_ok_iff :
    Span.read pageCount token = .ok span ↔ Denotes pageCount token.toList span := by
  constructor
  · intro hread
    by_cases hdash : '-' ∈ token.toList
    · obtain ⟨before, after, htoken, hbefore⟩ := List.eq_append_cons_of_mem hdash
      rw [read_of_dash htoken hbefore] at hread
      obtain ⟨first, hfirst, hread⟩ := Outcome.bind_eq_ok.1 hread
      have hopens := (opens_iff token).1 hfirst
      split at hread
      next hblank =>
        cases hread
        exact .range htoken hbefore hopens (.inl ⟨Text.trim_eq_nil_iff.1 hblank, rfl⟩) (by simp)
      next =>
        obtain ⟨last, hnumber, hread⟩ := Outcome.bind_eq_ok.1 hread
        obtain ⟨hspells, hlast⟩ := (number_eq_ok_iff token).1 hnumber
        split at hread
        next => cases hread
        next hforward =>
          cases hread
          exact .range htoken hbefore hopens (.inr ⟨last, hspells, hlast, rfl⟩)
            (by simpa using hforward)
    · rw [read_of_no_dash hdash] at hread
      obtain ⟨number, hnumber, hread⟩ := Outcome.bind_eq_ok.1 hread
      obtain ⟨hspells, hfirst⟩ := (number_eq_ok_iff token).1 hnumber
      split at hread
      next => cases hread
      next hlast =>
        cases hread
        exact .page hdash hspells hfirst (Nat.le_of_not_lt hlast)
  · intro hdenotes
    cases hdenotes with
    | page hdash hspells hfirst hlast =>
      rw [read_of_no_dash hdash]
      exact Outcome.bind_eq_ok.2
        ⟨_, (number_eq_ok_iff token).2 ⟨hspells, hfirst⟩, if_neg (Nat.not_lt.2 hlast)⟩
    | @range before after first last? htoken hdash hopens hcloses hforward =>
      rw [read_of_dash htoken hdash]
      refine Outcome.bind_eq_ok.2 ⟨first, (opens_iff token).2 hopens, ?_⟩
      rcases hcloses with ⟨hblank, rfl⟩ | ⟨last, hspells, hlast, rfl⟩
      · exact if_pos (Text.trim_eq_nil_iff.2 hblank)
      · rw [if_neg fun hblank => hspells.not_blank (Text.trim_eq_nil_iff.1 hblank)]
        exact Outcome.bind_eq_ok.2 ⟨last, (number_eq_ok_iff token).2 ⟨hspells, hlast⟩,
          if_neg (Nat.not_lt.2 (hforward last rfl))⟩

end Tokens

section Selections

variable {pageCount : Nat} {token : List Char} {tokens : List Operand} {selection : Selection}
  {span : Span}

theorem Denotes.one_le_first (hspan : Denotes pageCount token span) : 1 ≤ span.first := by
  cases hspan with
  | page _ _ hfirst _ => exact hfirst
  | range _ _ hopens _ _ =>
    rcases hopens with ⟨-, rfl⟩ | ⟨-, hfirst⟩
    · exact Nat.le_refl 1
    · exact hfirst

theorem covers_iff {page : Nat} :
    span.covers page ↔ span.first ≤ page ∧ ∀ last ∈ span.last?, page ≤ last := by
  rw [Span.covers]
  cases span.last? <;> simp

theorem ofTokens_succeeds_iff : (Selection.ofTokens pageCount tokens).Succeeds ↔
    ∀ token ∈ tokens, ∃ span, Denotes pageCount token.text.toList span := by
  constructor
  · rintro ⟨selection, hselection⟩ token hmem
    obtain ⟨spans, hspans, -⟩ := Outcome.bind_eq_ok.1 hselection
    obtain ⟨span, -, hread⟩ := Outcome.exists_mem_of_mapM hspans hmem
    exact ⟨span, read_eq_ok_iff.1 hread⟩
  · intro htokens
    refine Outcome.Succeeds.bind (.mapM fun token hmem => ?_) fun spans _ => .pure _
    obtain ⟨span, hspan⟩ := htokens token hmem
    exact ⟨span, read_eq_ok_iff.2 hspan⟩

/-- A page is selected if it is in the document and one of the tokens covers it. -/
theorem contains_iff (hselection : Selection.ofTokens pageCount tokens = .ok selection) (page : Nat) :
    selection.contains page ↔ (1 ≤ page ∧ page ≤ pageCount) ∧
      ∃ token ∈ tokens, ∃ span, Denotes pageCount token.text.toList span ∧
        span.first ≤ page ∧ ∀ last ∈ span.last?, page ≤ last := by
  obtain ⟨spans, hspans, hselection⟩ := Outcome.bind_eq_ok.1 hselection
  cases hselection
  simp only [Selection.contains, Bool.and_eq_true, decide_eq_true_eq, List.any_eq_true,
    and_congr_right_iff]
  intro _
  constructor
  · rintro ⟨span, hmem, hcovers⟩
    obtain ⟨token, htoken, hread⟩ := Outcome.exists_of_mem_mapM hspans hmem
    exact ⟨token, htoken, span, read_eq_ok_iff.1 hread, covers_iff.1 hcovers⟩
  · rintro ⟨token, htoken, span, hdenotes, hcovers⟩
    obtain ⟨found, hmem, hread⟩ := Outcome.exists_mem_of_mapM hspans htoken
    rw [read_eq_ok_iff.2 hdenotes, Except.ok.injEq] at hread
    exact ⟨found, hmem, hread ▸ covers_iff.2 hcovers⟩

end Selections

/-! ## Marking the pages -/

/-- The pages of a span in a document of so many pages. -/
def Span.reach (span : Span) (pageCount : Nat) : List Nat :=
  List.range' span.first (min (span.last?.getD pageCount) pageCount + 1 - span.first)

/-- Marks a page. There is a mark for every page of a document and no other. -/
def mark? (marks : List Bool) (page : Nat) : Option (List Bool) :=
  if 1 ≤ page ∧ page ≤ marks.length then some (marks.set (page - 1) true) else none

/-- Marks the pages of tokens, one token after the other and one page after the other. There is no
result if a page is looked for that has no mark. -/
def markTokens? (marks : List Bool) : List Operand → Option (Outcome (List Bool))
  | [] => some (.ok marks)
  | token :: rest =>
    match Span.read marks.length token.text with
    | .error failure => some (.error failure)
    | .ok span => do
      let marks ← (span.reach marks.length).foldlM mark? marks
      markTokens? marks rest

/-- The marks of a document whose pages with a property are marked. -/
def marksOf (pageCount : Nat) (selected : Nat → Bool) : List Bool :=
  (List.range' 1 pageCount).map selected

section Marks

variable {pageCount : Nat} {selected : Nat → Bool}

@[simp]
theorem length_marksOf : (marksOf pageCount selected).length = pageCount := by
  simp [marksOf]

theorem marksOf_congr {other : Nat → Bool}
    (hsame : ∀ page, 1 ≤ page → page ≤ pageCount → selected page = other page) :
    marksOf pageCount selected = marksOf pageCount other := by
  refine List.map_congr_left fun page hmem => ?_
  obtain ⟨hfirst, hlast⟩ := List.mem_range'_1.1 hmem
  exact hsame page hfirst (by omega)

theorem mark?_marksOf {page : Nat} (hfirst : 1 ≤ page) (hlast : page ≤ pageCount) :
    mark? (marksOf pageCount selected) page =
      some (marksOf pageCount fun other => selected other || other = page) := by
  rw [mark?, length_marksOf, if_pos ⟨hfirst, hlast⟩, Option.some.injEq]
  refine List.ext_getElem (by simp) fun index _ _ => ?_
  have hindex : page - 1 = index ↔ 1 + index = page := by omega
  simp only [marksOf, List.getElem_set, List.getElem_map, List.getElem_range', Nat.one_mul, hindex]
  split <;> simp_all

theorem foldlM_mark?_marksOf {pages : List Nat}
    (hinside : ∀ page ∈ pages, 1 ≤ page ∧ page ≤ pageCount) :
    pages.foldlM mark? (marksOf pageCount selected) =
      some (marksOf pageCount fun page => selected page || pages.contains page) := by
  induction pages generalizing selected with
  | nil => simp [marksOf]
  | cons page rest ih =>
    obtain ⟨⟨hfirst, hlast⟩, hrest⟩ := List.forall_mem_cons.1 hinside
    rw [List.foldlM_cons, mark?_marksOf hfirst hlast, Option.bind_eq_bind, Option.bind_some, ih hrest]
    simp [Bool.or_assoc]

/-- A span that a token denotes reaches no page outside of the document, and in it the pages that it
covers. -/
theorem mem_reach_iff {token : List Char} {span : Span} (hdenotes : Denotes pageCount token span)
    {page : Nat} : page ∈ span.reach pageCount ↔
      (1 ≤ page ∧ page ≤ pageCount) ∧ span.covers page := by
  have hfirst := hdenotes.one_le_first
  rw [Span.reach, List.mem_range'_1, covers_iff]
  cases span.last? <;> simp <;> omega

theorem ofTokens_cons (pageCount : Nat) (token : Operand) (rest : List Operand) :
    Selection.ofTokens pageCount (token :: rest) =
      Span.read pageCount token.text >>= fun span =>
        (Selection.ofTokens pageCount rest).map fun selection => ⟨pageCount, span :: selection.spans⟩ := by
  simp only [Selection.ofTokens, List.mapM_cons, bind_assoc, pure_bind]
  cases Span.read pageCount token.text with
  | error failure => rfl
  | ok span => cases rest.mapM fun token => Span.read pageCount token.text <;> rfl

theorem markTokens?_marksOf (tokens : List Operand) :
    markTokens? (marksOf pageCount selected) tokens =
      some ((Selection.ofTokens pageCount tokens).map fun selection =>
        marksOf pageCount fun page => selected page || selection.contains page) := by
  induction tokens generalizing selected with
  | nil =>
    have hnone : (Selection.ofTokens pageCount []).map (fun selection =>
        marksOf pageCount fun page => selected page || selection.contains page) =
          .ok (marksOf pageCount selected) := by
      show Except.ok _ = Except.ok _
      simp [Selection.contains]
    rw [markTokens?, hnone]
  | cons token rest ih =>
    rw [markTokens?, length_marksOf, ofTokens_cons]
    cases hread : Span.read pageCount token.text with
    | error failure => rfl
    | ok span =>
      have hreach {page : Nat} : page ∈ span.reach pageCount ↔
          (1 ≤ page ∧ page ≤ pageCount) ∧ span.covers page := mem_reach_iff (read_eq_ok_iff.1 hread)
      have hmarked : (span.reach pageCount).foldlM mark? (marksOf pageCount selected) = _ :=
        foldlM_mark?_marksOf fun page hmem => (hreach.1 hmem).1
      simp only [hmarked, Option.bind_eq_bind, Option.bind_some, ih, Option.some.injEq]
      cases hrest : Selection.ofTokens pageCount rest with
      | error failure => rfl
      | ok selection =>
        refine congrArg Except.ok (marksOf_congr fun page hfirst hlast => ?_)
        have hcovers : page ∈ span.reach pageCount ↔ span.covers page :=
          hreach.trans (and_iff_right ⟨hfirst, hlast⟩)
        simp [Selection.contains, Schedule.pageCount_of_ofTokens hrest, hcovers, hfirst, hlast,
          Bool.or_assoc]

end Marks

/-- A selection can be read from tokens if each of them denotes a page of the document or a range, and
it has the pages of the document that one of them covers. So neither the order of the tokens counts nor
how often they come. Marking the pages of the tokens one by one gives the same, or fails in the same
way, without ever looking for a page outside of the document. -/
theorem ofTokens_selects (pageCount : Nat) (tokens : List Operand) :
    markTokens? (List.replicate pageCount false) tokens =
      some ((Selection.ofTokens pageCount tokens).map fun selection =>
        (List.range' 1 pageCount).map selection.contains) ∧
    ((Selection.ofTokens pageCount tokens).Succeeds ↔
      ∀ token ∈ tokens, ∃ span, Denotes pageCount token.text.toList span) ∧
    (∀ selection, Selection.ofTokens pageCount tokens = .ok selection → ∀ page,
      selection.contains page ↔ (1 ≤ page ∧ page ≤ pageCount) ∧
        ∃ token ∈ tokens, ∃ span, Denotes pageCount token.text.toList span ∧
          span.first ≤ page ∧ ∀ last ∈ span.last?, page ≤ last) ∧
    ∀ others : List Operand, (∀ token, token ∈ others ↔ token ∈ tokens) →
      ((Selection.ofTokens pageCount others).Succeeds ↔
        (Selection.ofTokens pageCount tokens).Succeeds) ∧
      ∀ selection other, Selection.ofTokens pageCount tokens = .ok selection →
        Selection.ofTokens pageCount others = .ok other → other.pages = selection.pages := by
  refine ⟨?_, ofTokens_succeeds_iff, fun selection hselection => contains_iff hselection,
    fun others hothers => ⟨?_, fun selection other hselection hother => ?_⟩⟩
  · have hnone : List.replicate pageCount false = marksOf pageCount fun _ => false := by
      rw [marksOf, List.map_const', List.length_range']
    rw [hnone, markTokens?_marksOf]
    simp only [marksOf, Bool.false_or]
  · simp only [ofTokens_succeeds_iff, hothers]
  · rw [Selection.pages, Selection.pages, Schedule.pageCount_of_ofTokens hselection,
      Schedule.pageCount_of_ofTokens hother]
    refine List.filter_congr fun page _ => ?_
    rw [Bool.eq_iff_iff, contains_iff hother, contains_iff hselection]
    simp only [hothers]

/-- An open range and a page with a sign among blanks, in a document of four pages. -/
theorem ofTokens_selects_of_open_range :
    let tokens : List Operand := [⟨"3-"⟩, ⟨" +2"⟩]
    (∀ token ∈ tokens, ∃ span, Denotes 4 token.text.toList span) ∧
      markTokens? (List.replicate 4 false) tokens = some (.ok [false, true, true, true]) ∧
      ∃ selection, Selection.ofTokens 4 tokens = .ok selection ∧
        selection.contains 2 ∧ ¬ selection.contains 1 := by
  intro tokens
  have hthree : Spells ['3'] 3 :=
    ⟨[], [], ['3'], [], by simp⟩
  have hblank : Text.isBlank ' ' = true := by decide
  have htwo : Spells [' ', '+', '2'] 2 :=
    ⟨[' '], ['+'], ['2'], [], by simp [hblank]⟩
  have hend : Closes [] none := .inl ⟨by simp, rfl⟩
  have hopen : Denotes 4 "3-".toList ⟨3, none⟩ :=
    .range rfl (by decide) (.inr ⟨hthree, by decide⟩) hend (by simp)
  have hpage : Denotes 4 " +2".toList ⟨2, some 2⟩ :=
    .page (by decide) htwo (by decide) (by decide)
  obtain ⟨hmarks, hsucceeds, hcontains, -⟩ := ofTokens_selects 4 tokens
  have hdenoted : ∀ token ∈ tokens, ∃ span, Denotes 4 token.text.toList span := by
    simp only [tokens, List.forall_mem_cons]
    exact ⟨⟨_, hopen⟩, ⟨_, hpage⟩, fun _ hmem => absurd hmem List.not_mem_nil⟩
  obtain ⟨selection, hselection⟩ := hsucceeds.2 hdenoted
  have hvalue : selection = ⟨4, [⟨3, none⟩, ⟨2, some 2⟩]⟩ := by
    have hread : Selection.ofTokens 4 tokens = .ok ⟨4, [⟨3, none⟩, ⟨2, some 2⟩]⟩ := by decide +kernel
    rwa [hread, Except.ok.injEq, eq_comm] at hselection
  refine ⟨hdenoted, ?_, selection, hselection, ?_, ?_⟩
  · rw [hmarks, hselection, hvalue]
    rfl
  · exact (hcontains selection hselection 2).2
      ⟨by decide, ⟨" +2"⟩, by simp [tokens], _, hpage, by decide⟩
  · rw [hvalue]
    decide

end Overprint.Page
