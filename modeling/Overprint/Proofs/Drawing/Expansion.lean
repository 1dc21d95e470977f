import Overprint.Drawing.Template

/-!
# Expanding templates one variable after the other

A template could be expanded in one pass that writes the value of a variable where the variable stands
and goes on behind it. Replacing one variable after the other is the same as long as no value can
become part of a later variable, whatever stands around it. The numbers of pages never do. A path name
can, as it may hold any characters: the variable for the file name is replaced in it too, and where the
path name and the text around it make up that variable.
-/

namespace Overprint.Drawing

/-- The variable that stands at the beginning of the text, with its value. -/
def starting? (entries : List (List Char × List Char)) (cs : List Char) :
    Option (List Char × List Char) :=
  entries.find? fun entry => entry.1.isPrefixOf cs

/-- One pass over a template. Where a variable starts its value is written, and the pass goes on behind
the variable; every other character is copied. -/
def onePass (entries : List (List Char × List Char)) (cs : List Char) : List Char :=
  match cs with
  | [] => []
  | c :: rest =>
    match starting? entries (c :: rest) with
    | some (pattern, value) => value ++ onePass entries (rest.drop (pattern.length - 1))
    | none => c :: onePass entries rest
termination_by cs.length

/-- A text of which the pattern can become a part, if some beginning of the pattern stands before the
text and some end of it behind. -/
def CanComplete (pattern text : List Char) : Prop :=
  ∃ before after, before <+: pattern ∧ before ≠ pattern ∧ after <:+ pattern ∧ after ≠ pattern ∧
    pattern <:+: before ++ text ++ after

def IsBraced (pattern : List Char) : Prop :=
  ∃ name, pattern = '\x7b' :: name ++ ['\x7d'] ∧ '\x7b' ∉ name ∧ '\x7d' ∉ name

section Braces

variable {pattern text : List Char}

theorem IsBraced.ne_nil (hpattern : IsBraced pattern) : pattern ≠ [] := by
  obtain ⟨name, rfl, -⟩ := hpattern
  simp

theorem IsBraced.not_mem_after (hpattern : IsBraced pattern) {before after : List Char}
    (hsplit : pattern = before ++ after) (hbefore : before ≠ []) : '\x7b' ∉ after := by
  obtain ⟨name, rfl, hname, -⟩ := hpattern
  obtain ⟨c, before, rfl⟩ := List.exists_cons_of_ne_nil hbefore
  rw [List.cons_append, List.cons_append, List.cons.injEq] at hsplit
  intro hmem
  have hend : '\x7b' ∈ name ++ ['\x7d'] := hsplit.2 ▸ List.mem_append_right before hmem
  simp [hname] at hend

theorem IsBraced.not_mem_before (hpattern : IsBraced pattern) {before after : List Char}
    (hsplit : pattern = before ++ after) (hafter : after ≠ []) : '\x7d' ∉ before := by
  obtain ⟨name, rfl, -, hname⟩ := hpattern
  obtain ⟨after, c, rfl⟩ := (List.eq_nil_or_concat after).resolve_left hafter
  rw [List.concat_eq_append, ← List.append_assoc] at hsplit
  intro hmem
  have hstart : '\x7d' ∈ '\x7b' :: name :=
    (List.append_inj_left' hsplit rfl) ▸ List.mem_append_left after hmem
  simp [hname] at hstart

theorem IsBraced.closes_mem (hpattern : IsBraced pattern) : '\x7d' ∈ pattern := by
  obtain ⟨name, rfl, -⟩ := hpattern
  simp

theorem IsBraced.not_starts (hpattern : IsBraced pattern) (htext : text ≠ []) (hclose : '\x7d' ∉ text)
    (rest : List Char) : ¬ pattern <+: text ++ '\x7b' :: rest := by
  intro hstarts
  rcases List.prefix_or_prefix_of_prefix hstarts (List.prefix_append text _) with
    hbegins | ⟨after, rfl⟩
  · exact hclose (hbegins.subset hpattern.closes_mem)
  · rw [List.prefix_append_right_inj] at hstarts
    cases after with
    | nil => exact hclose (by simpa using hpattern.closes_mem)
    | cons c after =>
      rw [List.cons_prefix_cons] at hstarts
      exact hpattern.not_mem_after rfl htext (hstarts.1 ▸ List.mem_cons_self)

end Braces

section Completing

variable {pattern text middle after : List Char}

theorem canComplete_of_starts (hpattern : pattern ≠ []) (hmiddle : middle ≠ [])
    (htext : middle <:+ text) (hstarts : pattern <+: middle ++ after) : CanComplete pattern text := by
  obtain ⟨start, rfl⟩ := htext
  rcases List.prefix_or_prefix_of_prefix hstarts (List.prefix_append middle after) with
    ⟨rest, rfl⟩ | ⟨rest, rfl⟩
  · refine ⟨[], [], List.nil_prefix, hpattern.symm, List.nil_suffix, hpattern.symm, start, rest, ?_⟩
    simp
  · refine ⟨[], rest, List.nil_prefix, hpattern.symm, List.suffix_append middle rest, fun hrest => ?_,
      start, [], ?_⟩
    · exact hmiddle (List.append_left_eq_self.1 hrest.symm)
    · simp

theorem canComplete_of_continues {before : List Char} (hpattern : pattern = before ++ middle)
    (hbefore : before ≠ []) (hmiddle : middle ≠ []) (hcontinues : middle <+: text ++ after) :
    CanComplete pattern text := by
  have hproper : before ≠ pattern := fun heq => hmiddle (List.append_right_eq_self.1 (hpattern ▸ heq.symm))
  rcases List.prefix_or_prefix_of_prefix hcontinues (List.prefix_append text after) with
    ⟨rest, rfl⟩ | ⟨rest, rfl⟩
  · refine ⟨before, [], ⟨middle, hpattern.symm⟩, hproper, List.nil_suffix, ?_, [], rest, ?_⟩
    · rw [hpattern]
      simp [hbefore]
    · simp [hpattern]
  · refine ⟨before, rest, ⟨_, hpattern.symm⟩, hproper, ?_, ?_, [], [], ?_⟩
    · rw [hpattern, ← List.append_assoc]
      exact List.suffix_append _ rest
    · rw [hpattern]
      intro heq
      have := congrArg List.length heq
      have := List.length_pos_iff.2 hbefore
      simp only [List.length_append] at *
      omega
    · simp [hpattern]

/-- A pattern stands before or behind a character that it does not contain. -/
theorem infix_or_infix_of_not_mem {left right : List Char} {c : Char} (hc : c ∉ pattern)
    (hoccurs : pattern <:+: left ++ c :: right) : pattern <:+: left ∨ pattern <:+: right := by
  obtain ⟨start, rest, hsplit⟩ := hoccurs
  rcases List.append_eq_append_iff.1 hsplit with ⟨tail, rfl, -⟩ | ⟨tail, hstart, hrest⟩
  · exact .inl ⟨start, tail, rfl⟩
  cases tail with
  | nil => exact .inl ⟨start, [], by simpa using hstart⟩
  | cons d tail =>
    obtain ⟨rfl, rfl⟩ := List.cons.inj hrest
    rcases List.append_eq_append_iff.1 hstart with ⟨tail', -, rfl⟩ | ⟨tail', -, htail⟩
    · simp at hc
    · cases tail' with
      | nil => simp [← show c :: tail = pattern from htail] at hc
      | cons d tail' =>
        obtain ⟨-, rfl⟩ := List.cons.inj htail
        exact .inr ⟨tail', rest, rfl⟩

theorem not_canComplete_of_disjoint (htext : text ≠ []) (hdisjoint : ∀ c ∈ text, c ∉ pattern) :
    ¬ CanComplete pattern text := by
  rintro ⟨before, after, hbefore, hbeforeNe, hafter, hafterNe, hoccurs⟩
  have hnotBefore : ¬ pattern <:+: before := fun h =>
    hbeforeNe (hbefore.eq_of_length_le h.length_le)
  have hnotAfter : ¬ pattern <:+: after := fun h =>
    hafterNe (hafter.eq_of_length_le h.length_le)
  have hbehind (text : List Char) (hdisjoint : ∀ c ∈ text, c ∉ pattern) :
      ¬ pattern <:+: text ++ after := by
    induction text with
    | nil => exact hnotAfter
    | cons c text ih =>
      intro hoccurs
      have hoccurs : pattern <:+: [] ++ c :: (text ++ after) := hoccurs
      rcases infix_or_infix_of_not_mem (hdisjoint c List.mem_cons_self) hoccurs with hnil | hrest
      · exact hnotAfter (hnil.trans List.nil_infix)
      · exact ih (fun d hd => hdisjoint d (List.mem_cons_of_mem c hd)) hrest
  obtain ⟨c, text, rfl⟩ := List.exists_cons_of_ne_nil htext
  rw [List.append_assoc, List.cons_append] at hoccurs
  rcases infix_or_infix_of_not_mem (hdisjoint c List.mem_cons_self) hoccurs with hleft | hright
  · exact hnotBefore hleft
  · exact hbehind text (fun d hd => hdisjoint d (List.mem_cons_of_mem c hd)) hright

end Completing

section Substituting

variable {pattern replacement : List Char}

theorem length_lt_of_append {rest cs : List Char} (hpattern : pattern ≠ [])
    (hsplit : pattern ++ rest = cs) : rest.length < cs.length := by
  have := List.length_pos_iff.2 hpattern
  simp only [← hsplit, List.length_append]
  omega

theorem substitute_nil : substitute pattern replacement [] = [] := by
  rw [substitute]

theorem substitute_append (hpattern : pattern ≠ []) (rest : List Char) :
    substitute pattern replacement (pattern ++ rest) =
      replacement ++ substitute pattern replacement rest := by
  obtain ⟨c, name, rfl⟩ := List.exists_cons_of_ne_nil hpattern
  rw [List.cons_append, substitute, if_pos]
  · simp
  · simp [List.isPrefixOf_iff_prefix]

theorem substitute_cons {c : Char} {rest : List Char} (hpattern : ¬ pattern <+: c :: rest) :
    substitute pattern replacement (c :: rest) = c :: substitute pattern replacement rest := by
  rw [substitute, if_neg (by rwa [List.isPrefixOf_iff_prefix])]

/-- What cannot be completed to the pattern stays as it is, whatever comes after it. -/
theorem substitute_of_not_canComplete (hpattern : pattern ≠ []) {text : List Char}
    (htext : ¬ CanComplete pattern text) (rest : List Char) :
    substitute pattern replacement (text ++ rest) =
      text ++ substitute pattern replacement rest := by
  have hsuffix (middle : List Char) (hmiddle : middle <:+ text) :
      substitute pattern replacement (middle ++ rest) =
        middle ++ substitute pattern replacement rest := by
    induction middle with
    | nil => rfl
    | cons c middle ih =>
      have hstarts : ¬ pattern <+: c :: (middle ++ rest) := fun hstarts =>
        htext (canComplete_of_starts hpattern (List.cons_ne_nil c middle) hmiddle hstarts)
      rw [List.cons_append, substitute_cons hstarts, ih ((List.suffix_cons c middle).trans hmiddle),
        List.cons_append]
  exact hsuffix text List.suffix_rfl

theorem length_substitute_le (hshorter : replacement.length ≤ pattern.length) (cs : List Char) :
    (substitute pattern replacement cs).length ≤ cs.length := by
  fun_induction substitute pattern replacement cs with
  | case1 => simp
  | case2 c rest hstarts ih =>
    have := (List.isPrefixOf_iff_prefix.1 hstarts).length_le
    simp only [List.length_append, List.length_drop, List.length_cons] at *
    omega
  | case3 c rest hstarts ih => simpa using ih

theorem le_length_substitute (hpattern : pattern ≠ [])
    (hlonger : pattern.length ≤ replacement.length) (cs : List Char) :
    cs.length ≤ (substitute pattern replacement cs).length := by
  have := List.length_pos_iff.2 hpattern
  fun_induction substitute pattern replacement cs with
  | case1 => simp
  | case2 c rest hstarts ih =>
    simp only [List.length_append, List.length_drop, List.length_cons] at *
    omega
  | case3 c rest hstarts ih => simpa using ih

theorem substitute_self (hpattern : pattern ≠ []) (cs : List Char) :
    substitute pattern pattern cs = cs := by
  induction hn : cs.length using Nat.strongRecOn generalizing cs with
  | ind n ih =>
  subst hn
  by_cases hstarts : pattern <+: cs
  · obtain ⟨rest, rfl⟩ := hstarts
    rw [substitute_append hpattern, ih rest.length (length_lt_of_append hpattern rfl) rest rfl]
  · cases cs with
    | nil => exact substitute_nil
    | cons c rest => rw [substitute_cons hstarts, ih rest.length (by simp) rest rfl]

/-- Replacing a pattern that occurs changes the text. -/
theorem eq_of_substitute_eq_self (hpattern : pattern ≠ []) {cs : List Char}
    (hoccurs : pattern <:+: cs) (hsame : substitute pattern replacement cs = cs) :
    replacement = pattern := by
  induction cs with
  | nil => exact absurd (List.infix_nil.1 hoccurs) hpattern
  | cons c rest ih =>
    by_cases hstarts : pattern <+: c :: rest
    · obtain ⟨behind, hsplit⟩ := hstarts
      rw [← hsplit, substitute_append hpattern] at hsame
      have hlengths := congrArg List.length hsame
      simp only [List.length_append] at hlengths
      rcases Nat.lt_trichotomy replacement.length pattern.length with hlt | heq | hgt
      · have := length_substitute_le (Nat.le_of_lt hlt) behind
        omega
      · exact List.append_inj_left hsame heq
      · have := le_length_substitute hpattern (Nat.le_of_lt hgt) behind
        omega
    · rw [substitute_cons hstarts] at hsame
      exact ih ((List.infix_cons_iff.1 hoccurs).resolve_left hstarts) (List.cons.inj hsame).2

end Substituting

section OnePass

variable {entries : List (List Char × List Char)} {pattern value : List Char}

theorem starting?_append (cs : List Char) :
    starting? (entries ++ [(pattern, value)]) cs =
      (starting? entries cs).or (if pattern.isPrefixOf cs then some (pattern, value) else none) := by
  simp only [starting?, List.find?_append, List.find?_singleton]

theorem starting?_append_of_some {cs : List Char} {entry : List Char × List Char}
    (hstarting : starting? entries cs = some entry) :
    starting? (entries ++ [(pattern, value)]) cs = some entry := by
  rw [starting?_append, hstarting, Option.some_or]

theorem starting?_append_of_starts {cs : List Char} (hnone : starting? entries cs = none)
    (hstarts : pattern <+: cs) :
    starting? (entries ++ [(pattern, value)]) cs = some (pattern, value) := by
  rw [starting?_append, hnone, Option.none_or, if_pos (List.isPrefixOf_iff_prefix.2 hstarts)]

theorem starting?_append_of_not_starts {cs : List Char} (hnone : starting? entries cs = none)
    (hstarts : ¬ pattern <+: cs) : starting? (entries ++ [(pattern, value)]) cs = none := by
  rw [starting?_append, hnone, Option.none_or, if_neg (by rwa [List.isPrefixOf_iff_prefix])]

theorem mem_of_starting? {cs : List Char} {entry : List Char × List Char}
    (hstarting : starting? entries cs = some entry) : entry ∈ entries ∧ entry.1 <+: cs := by
  rw [starting?] at hstarting
  have hstarts := List.find?_some hstarting
  exact ⟨List.mem_of_find?_eq_some hstarting, List.isPrefixOf_iff_prefix.1 hstarts⟩

theorem starting?_eq_none {cs : List Char}
    (hentries : ∀ entry ∈ entries, ¬ entry.1 <+: cs) : starting? entries cs = none := by
  simpa [starting?, List.isPrefixOf_iff_prefix] using hentries

theorem onePass_nil : onePass entries [] = [] := by
  rw [onePass]

theorem onePass_empty (cs : List Char) : onePass [] cs = cs := by
  induction cs with
  | nil => rw [onePass]
  | cons c rest ih => rw [onePass, starting?, List.find?_nil, ih]

theorem onePass_copied {c : Char} {rest : List Char}
    (hstarting : starting? entries (c :: rest) = none) :
    onePass entries (c :: rest) = c :: onePass entries rest := by
  rw [onePass, hstarting]

theorem onePass_written {rest : List Char} (hpattern : pattern ≠ [])
    (hstarting : starting? entries (pattern ++ rest) = some (pattern, value)) :
    onePass entries (pattern ++ rest) = value ++ onePass entries rest := by
  obtain ⟨c, name, rfl⟩ := List.exists_cons_of_ne_nil hpattern
  rw [List.cons_append] at hstarting ⊢
  rw [onePass, hstarting]
  simp

theorem onePass_cases (hentries : ∀ entry ∈ entries, IsBraced entry.1) (cs : List Char) :
    cs = [] ∨
    (∃ pattern value rest, (pattern, value) ∈ entries ∧ cs = pattern ++ rest ∧
      rest.length < cs.length ∧ starting? entries cs = some (pattern, value) ∧
      onePass entries cs = value ++ onePass entries rest) ∨
    (∃ c rest, cs = c :: rest ∧ starting? entries cs = none ∧
      onePass entries cs = c :: onePass entries rest) := by
  cases cs with
  | nil => exact .inl rfl
  | cons c rest =>
    cases hstarting : starting? entries (c :: rest) with
    | none => exact .inr (.inr ⟨c, rest, rfl, rfl, onePass_copied hstarting⟩)
    | some entry =>
      obtain ⟨pattern, value⟩ := entry
      obtain ⟨hmem, behind, hsplit⟩ := mem_of_starting? hstarting
      have hne : pattern ≠ [] := (hentries _ hmem).ne_nil
      refine .inr (.inl ⟨pattern, value, behind, hmem, hsplit.symm, length_lt_of_append hne hsplit,
        rfl, ?_⟩)
      rw [← hsplit] at hstarting ⊢
      exact onePass_written hne hstarting

theorem onePass_append_of_not_mem (hentries : ∀ entry ∈ entries, IsBraced entry.1)
    {text : List Char} (htext : '\x7b' ∉ text) (rest : List Char) :
    onePass entries (text ++ rest) = text ++ onePass entries rest := by
  induction text with
  | nil => rfl
  | cons c text ih =>
    have hnone : starting? entries (c :: (text ++ rest)) = none :=
      starting?_eq_none fun entry hentry hstarts => by
        obtain ⟨name, hname, -⟩ := hentries entry hentry
        rw [hname, List.cons_append, List.cons_prefix_cons] at hstarts
        exact htext (hstarts.1 ▸ List.mem_cons_self)
    rw [List.cons_append, onePass_copied hnone, List.cons_append,
      ih fun hmem => htext (List.mem_cons_of_mem c hmem)]

/-- Where a name in braces stands that is no variable, all of it is copied. -/
theorem onePass_append_of_isBraced (hentries : ∀ entry ∈ entries, IsBraced entry.1)
    (hpattern : IsBraced pattern) {rest : List Char}
    (hstarting : starting? entries (pattern ++ rest) = none) :
    onePass entries (pattern ++ rest) = pattern ++ onePass entries rest := by
  obtain ⟨c, name, rfl⟩ := List.exists_cons_of_ne_nil hpattern.ne_nil
  have hname : '\x7b' ∉ name := hpattern.not_mem_after (show c :: name = [c] ++ name from rfl) (by simp)
  rw [List.cons_append] at hstarting ⊢
  rw [onePass_copied hstarting, onePass_append_of_not_mem hentries hname, List.cons_append]

/-- What a pass leaves begins with the end of a pattern only if that stood there before. -/
theorem prefix_of_prefix_onePass (hentries : ∀ entry ∈ entries, IsBraced entry.1)
    (hvalues : ∀ entry ∈ entries, ¬ CanComplete pattern entry.2) {before middle cs : List Char}
    (hpattern : pattern = before ++ middle) (hbefore : before ≠ [])
    (hstarts : middle <+: onePass entries cs) : middle <+: cs := by
  induction middle generalizing before cs with
  | nil => exact List.nil_prefix
  | cons d middle ih =>
    rcases onePass_cases hentries cs with rfl | ⟨name, value, rest, hmem, -, -, -, hpass⟩ |
      ⟨c, rest, rfl, -, hpass⟩
    · rwa [onePass_nil] at hstarts
    · rw [hpass] at hstarts
      exact absurd (canComplete_of_continues hpattern hbefore (by simp) hstarts) (hvalues _ hmem)
    · rw [hpass, List.cons_prefix_cons] at hstarts
      rw [List.cons_prefix_cons]
      have hagain : pattern = (before ++ [d]) ++ middle := by simp [hpattern]
      exact ⟨hstarts.1, ih hagain (by simp) hstarts.2⟩

/-- What two passes do at the beginning of a text if one of them has one more variable. -/
theorem onePass_append_cases (hentries : ∀ entry ∈ entries, IsBraced entry.1)
    (hpattern : IsBraced pattern) (value cs : List Char) :
    let extended := entries ++ [(pattern, value)]
    cs = [] ∨
    (∃ entry rest, entry ∈ entries ∧ rest.length < cs.length ∧
      onePass entries cs = entry.2 ++ onePass entries rest ∧
      onePass extended cs = entry.2 ++ onePass extended rest) ∨
    (∃ rest, rest.length < cs.length ∧ onePass entries cs = pattern ++ onePass entries rest ∧
      onePass extended cs = value ++ onePass extended rest) ∨
    (∃ c rest, cs = c :: rest ∧ ¬ pattern <+: c :: rest ∧
      onePass entries cs = c :: onePass entries rest ∧
      onePass extended cs = c :: onePass extended rest) := by
  intro extended
  rcases onePass_cases hentries cs with rfl |
    ⟨name, written, rest, hmem, rfl, hshorter, hstarting, hpass⟩ | ⟨c, rest, rfl, hnone, hpass⟩
  · exact .inl rfl
  · refine .inr (.inl ⟨(name, written), rest, hmem, hshorter, hpass, ?_⟩)
    exact onePass_written (hentries _ hmem).ne_nil (starting?_append_of_some hstarting)
  · by_cases hstarts : pattern <+: c :: rest
    · have hextended : starting? extended (c :: rest) = some (pattern, value) :=
        starting?_append_of_starts hnone hstarts
      obtain ⟨behind, hsplit⟩ := hstarts
      refine .inr (.inr (.inl ⟨behind, length_lt_of_append hpattern.ne_nil hsplit, ?_, ?_⟩))
      · rw [← hsplit] at hnone ⊢
        exact onePass_append_of_isBraced hentries hpattern hnone
      · rw [← hsplit] at hextended ⊢
        exact onePass_written hpattern.ne_nil hextended
    · have hextended : starting? extended (c :: rest) = none :=
        starting?_append_of_not_starts hnone hstarts
      exact .inr (.inr (.inr ⟨c, rest, rfl, hstarts, hpass, onePass_copied hextended⟩))

/-- Replacing a variable in what a pass leaves is making the pass with that variable too, if no value
written by the pass can become part of it. -/
theorem substitute_onePass (hentries : ∀ entry ∈ entries, IsBraced entry.1)
    (hvalues : ∀ entry ∈ entries, ¬ CanComplete pattern entry.2) (hpattern : IsBraced pattern)
    (cs : List Char) :
    substitute pattern value (onePass entries cs) =
      onePass (entries ++ [(pattern, value)]) cs := by
  induction hn : cs.length using Nat.strongRecOn generalizing cs with
  | ind n ih =>
  subst hn
  rcases onePass_append_cases hentries hpattern value cs with rfl |
    ⟨entry, rest, hmem, hshorter, hpass, hextended⟩ | ⟨rest, hshorter, hpass, hextended⟩ |
    ⟨c, rest, rfl, hstarts, hpass, hextended⟩
  · rw [onePass_nil, onePass_nil, substitute_nil]
  · rw [hpass, hextended, substitute_of_not_canComplete hpattern.ne_nil (hvalues _ hmem),
      ih _ hshorter rest rfl]
  · rw [hpass, hextended, substitute_append hpattern.ne_nil, ih _ hshorter rest rfl]
  · -- The pattern does not start here, so it cannot start here after the pass either: that would make
    -- it go on into something the pass has written.
    have hstays : ¬ pattern <+: c :: onePass entries rest := by
      intro hstays
      obtain ⟨d, name, rfl⟩ := List.exists_cons_of_ne_nil hpattern.ne_nil
      rw [List.cons_prefix_cons] at hstarts hstays
      have hopened : d :: name = [d] ++ name := rfl
      exact hstarts ⟨hstays.1,
        prefix_of_prefix_onePass hentries hvalues hopened (by simp) hstays.2⟩
    rw [hpass, hextended, substitute_cons hstays, ih _ (by simp) rest rfl]

theorem onePass_append_self (hentries : ∀ entry ∈ entries, IsBraced entry.1)
    (hpattern : IsBraced pattern) (cs : List Char) :
    onePass (entries ++ [(pattern, pattern)]) cs = onePass entries cs := by
  induction hn : cs.length using Nat.strongRecOn generalizing cs with
  | ind n ih =>
  subst hn
  rcases onePass_append_cases hentries hpattern pattern cs with rfl |
    ⟨entry, rest, -, hshorter, hpass, hextended⟩ | ⟨rest, hshorter, hpass, hextended⟩ |
    ⟨c, rest, rfl, -, hpass, hextended⟩
  · rw [onePass_nil, onePass_nil]
  · rw [hpass, hextended, ih _ hshorter rest rfl]
  · rw [hpass, hextended, ih _ hshorter rest rfl]
  · rw [hpass, hextended, ih _ (by simp) rest rfl]

/-- The beginning of a name in braces is copied in front of a brace that opens the next. -/
theorem onePass_append_brace (hentries : ∀ entry ∈ entries, IsBraced entry.1)
    (hpattern : IsBraced pattern) {before : List Char} (hbefore : before <+: pattern)
    (hproper : before ≠ pattern) (rest : List Char) :
    onePass entries (before ++ '\x7b' :: rest) = before ++ onePass entries ('\x7b' :: rest) := by
  cases before with
  | nil => rfl
  | cons c before =>
    obtain ⟨after, hsplit⟩ := hbefore
    have hopen : '\x7b' ∉ before ++ after :=
      hpattern.not_mem_after (show pattern = [c] ++ (before ++ after) from hsplit.symm) (by simp)
    have hclose : '\x7d' ∉ c :: before := by
      refine hpattern.not_mem_before hsplit.symm fun hafter => hproper ?_
      rw [← hsplit, hafter, List.append_nil]
    have hnone : starting? entries (c :: (before ++ '\x7b' :: rest)) = none :=
      starting?_eq_none fun entry hentry =>
        (hentries entry hentry).not_starts (List.cons_ne_nil c before) hclose rest
    rw [List.cons_append, onePass_copied hnone, onePass_append_of_not_mem hentries, List.cons_append]
    exact fun hmem => hopen (List.mem_append_left after hmem)

end OnePass

namespace Place

def braced (name : String) : List Char :=
  '\x7b' :: name.toList ++ ['\x7d']

/-- The variables that are replaced before the name of the file is, with their values. -/
def earlierVariables (place : Place) : List (List Char × List Char) :=
  [(braced "page", (toString place.page).toList),
    (braced "pages", (toString place.pageCount).toList),
    (braced "pathname", place.pathname.toList)]

def allVariables (place : Place) : List (List Char × List Char) :=
  place.earlierVariables ++ [(braced "filename", place.filename.toList)]

def expandOnce (place : Place) (text : String) : String :=
  String.ofList (onePass place.allVariables text.toList)

theorem isBraced_braced {name : String}
    (hname : '\x7b' ∉ name.toList ∧ '\x7d' ∉ name.toList) : IsBraced (braced name) :=
  ⟨name.toList, rfl, hname⟩

theorem isBraced_earlierVariables (place : Place) :
    ∀ entry ∈ place.earlierVariables, IsBraced entry.1 := by
  simp only [earlierVariables, List.forall_mem_cons]
  exact ⟨isBraced_braced (by decide), isBraced_braced (by decide), isBraced_braced (by decide),
    by simp⟩

theorem isBraced_allVariables (place : Place) : ∀ entry ∈ place.allVariables, IsBraced entry.1 := by
  simp only [allVariables, List.forall_mem_append, List.forall_mem_singleton]
  exact ⟨isBraced_earlierVariables place, isBraced_braced (by decide)⟩

theorem not_canComplete_number (name : String) (hname : (braced name).all (!·.isDigit) = true)
    (number : Nat) : ¬ CanComplete (braced name) (toString number).toList := by
  have hdigits : (toString number).toList = Nat.toDigits 10 number := by
    rw [Nat.toString_eq_ofList_toDigits, String.toList_ofList]
  rw [hdigits]
  refine not_canComplete_of_disjoint Nat.toDigits_ne_nil fun c hdigit hmem => ?_
  have hisDigit := Nat.isDigit_of_mem_toDigits (by decide) (by decide) hdigit
  have hnotDigit := List.all_eq_true.1 hname c hmem
  simp [hisDigit] at hnotDigit

/-- Replacing one more variable after a pass whose values cannot become part of it. -/
theorem fill_onePass {entries : List (List Char × List Char)} {name : String}
    (hentries : ∀ entry ∈ entries, IsBraced entry.1) (hname : IsBraced (braced name))
    (hvalues : ∀ entry ∈ entries, ¬ CanComplete (braced name) entry.2)
    (value : String) (cs : List Char) :
    fill name value (onePass entries cs) =
      onePass (entries ++ [(braced name, value.toList)]) cs :=
  substitute_onePass hentries hvalues hname cs

/-- The variables before the name of the file are replaced as if in one pass, since the values written
before the last of them are numbers. -/
theorem fill_earlier (place : Place) (cs : List Char) :
    fill "pathname" place.pathname
        (fill "pages" (toString place.pageCount) (fill "page" (toString place.page) cs)) =
      onePass place.earlierVariables cs := by
  have hpage : IsBraced (braced "page") := isBraced_braced (by decide)
  have hpages : IsBraced (braced "pages") := isBraced_braced (by decide)
  have hpathname : IsBraced (braced "pathname") := isBraced_braced (by decide)
  have hfirst (cs : List Char) : fill "page" (toString place.page) cs =
      onePass [(braced "page", (toString place.page).toList)] cs := by
    rw [← onePass_empty cs, fill_onePass (by simp) hpage (by simp), onePass_empty, List.nil_append]
  rw [hfirst, fill_onePass (by simpa using hpage) hpages, fill_onePass _ hpathname]
  · rfl
  · simp only [List.singleton_append, List.forall_mem_cons]
    exact ⟨not_canComplete_number "pathname" (by decide) place.page,
      not_canComplete_number "pathname" (by decide) place.pageCount, by simp⟩
  · simpa using ⟨hpage, hpages⟩
  · simp only [List.forall_mem_singleton]
    exact not_canComplete_number "pages" (by decide) place.page

theorem expand_eq_fill (place : Place) (text : String) :
    place.expand text =
      String.ofList (fill "filename" place.filename (onePass place.earlierVariables text.toList)) := by
  simp only [expand, fill_earlier]

/-- Between a beginning and an end of the variable for the name of the file, a pass writes the path name
and nothing else. -/
theorem onePass_around {place : Place} {entries : List (List Char × List Char)}
    (hentries : ∀ entry ∈ entries, IsBraced entry.1)
    {before after : List Char} (hbefore : before <+: braced "filename")
    (hbeforeNe : before ≠ braced "filename") (hafter : after <:+ braced "filename")
    (hafterNe : after ≠ braced "filename")
    (hstarting : starting? entries (braced "pathname" ++ after) =
      some (braced "pathname", place.pathname.toList)) :
    onePass entries (before ++ braced "pathname" ++ after) =
      before ++ place.pathname.toList ++ after := by
  have hfilename : IsBraced (braced "filename") := isBraced_braced (by decide)
  have hbehind : '\x7b' ∉ after := by
    obtain ⟨start, hsplit⟩ := hafter
    refine hfilename.not_mem_after hsplit.symm fun hstart => hafterNe ?_
    rw [← hsplit, hstart, List.nil_append]
  calc
    onePass entries (before ++ braced "pathname" ++ after) =
        before ++ onePass entries (braced "pathname" ++ after) := by
      rw [List.append_assoc]
      exact onePass_append_brace hentries hfilename hbefore hbeforeNe _
    _ = before ++ (place.pathname.toList ++ onePass entries (after ++ [])) := by
      rw [onePass_written (isBraced_braced (by decide)).ne_nil hstarting, List.append_nil]
    _ = before ++ place.pathname.toList ++ after := by
      rw [onePass_append_of_not_mem hentries hbehind, onePass_nil, List.append_nil,
        List.append_assoc]

/-- Replacing one variable after the other is one pass over the template as far as the page, the number
of pages and the path name go. The variable for the name of the file is replaced afterwards, in what the
path name brought in as well: the two agree on all templates if and only if no template can make that
variable up with the path name, or the file is named like the variable. -/
theorem expand_eq_expandOnce_iff (place : Place) :
    (∀ text, place.expand text =
      String.ofList (fill "filename" place.filename (onePass place.earlierVariables text.toList))) ∧
    ((∀ text, place.expand text = place.expandOnce text) ↔
      place.filename = "{filename}" ∨ ¬ CanComplete (braced "filename") place.pathname.toList) := by
  have hfilename : IsBraced (braced "filename") := isBraced_braced (by decide)
  have hentries := isBraced_earlierVariables place
  refine ⟨expand_eq_fill place, fun hall => ?_, ?_⟩
  · refine Classical.or_iff_not_imp_right.2 fun hcan => ?_
    obtain ⟨before, after, hbefore, hbeforeNe, hafter, hafterNe, hoccurs⟩ :=
      Classical.not_not.1 hcan
    have hstarting : starting? place.earlierVariables (braced "pathname" ++ after) =
        some (braced "pathname", place.pathname.toList) := rfl
    have hearlier := onePass_around hentries hbefore hbeforeNe hafter hafterNe hstarting
    have honce := onePass_around (isBraced_allVariables place) hbefore hbeforeNe hafter hafterNe
      (starting?_append_of_some hstarting)
    have hsame := hall (String.ofList (before ++ braced "pathname" ++ after))
    rw [expand_eq_fill, expandOnce, String.toList_ofList, hearlier, honce, String.ofList_inj] at hsame
    exact String.toList_inj.1 (eq_of_substitute_eq_self hfilename.ne_nil hoccurs hsame)
  · rintro (hself | hcannot) text
    · rw [expand_eq_fill, expandOnce, allVariables, hself]
      exact congrArg String.ofList ((substitute_self hfilename.ne_nil _).trans
        (onePass_append_self hentries hfilename _).symm)
    · rw [expand_eq_fill, expandOnce, allVariables, fill_onePass hentries hfilename]
      simp only [earlierVariables, List.forall_mem_cons]
      exact ⟨not_canComplete_number "filename" (by decide) place.page,
        not_canComplete_number "filename" (by decide) place.pageCount, hcannot, by simp⟩

example : Place.expand { page := 1, pageCount := 1, pathname := "{filename}/a.pdf" } "{pathname}" =
    "a.pdf/a.pdf" := by
  cbv

end Place

end Overprint.Drawing
