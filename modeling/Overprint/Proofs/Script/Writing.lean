import Overprint.Proofs.Script.Admission

/-!
# Writing command lines

A command can be written in many ways: with either name of its verb, and with its settings anywhere
among its operands. A backslash in front of `\`, `:` and `=` keeps a text from being taken apart.
However commands are written, they are read as what they were; and whatever is read are admitted
commands, each of one or two arguments, before the files.
-/

namespace Overprint.Script

/-- A text with a backslash before each character that divides items or their parts. -/
def escape (text : List Char) : List Char :=
  text.flatMap fun c => if c = '\\' ∨ c = ':' ∨ c = '=' then ['\\', c] else [c]

/-- What is written as one item. -/
inductive Piece where
  | operand (value : Operand)
  | setting (key : String) (value : Operand)

namespace Piece

def written : Piece → List Char
  | operand value => escape value.text.toList
  | setting key value => escape key.toList ++ '=' :: escape value.text.toList

def operand? : Piece → Option Operand
  | operand value => some value
  | setting _ _ => none

def setting? : Piece → Option (String × Operand)
  | operand _ => none
  | setting key value => some (key, value)

def item : Piece → Item
  | operand value => { head := value.text.toList }
  | setting key value => { head := key.toList, tail? := some value.text.toList }

end Piece

def joined (pieces : List Piece) : String :=
  String.ofList ([':'].intercalate (pieces.map Piece.written))

def Verb.names (verb : Verb) : List String :=
  ["-" ++ verb.shortName, "--" ++ verb.longName]

namespace Command

/-- Pieces with the operands of a command in order, and its settings in any order among them. -/
structure MadeOf (command : Command) (pieces : List Piece) : Prop where
  operands : pieces.filterMap Piece.operand? = command.operands
  settings : (pieces.filterMap Piece.setting?).Perm command.settings.entries

/-- A name of the verb, and one argument more exactly if the verb takes values. -/
def Shaped (command : Command) (arguments : List String) : Prop :=
  ∃ token values, arguments = token :: values ∧ token ∈ command.verb.names ∧
    values.length = if command.verb.form.takesValues then 1 else 0

/-- A command as arguments: a name of the verb, and the pieces if the verb takes values. -/
def Written (command : Command) (arguments : List String) : Prop :=
  ∃ token ∈ command.verb.names,
    if command.verb.form.takesValues then
      ∃ pieces, command.MadeOf pieces ∧ arguments = [token, joined pieces]
    else arguments = [token]

end Command

/-- The commands of a line come first, each with its arguments. Two dashes end them, or an argument
that starts no command, or nothing more; the rest are the files. -/
def Line.TakenFrom (line : Line) (arguments : List String) : Prop :=
  ∃ taken : List (Command × List String), taken.map (·.1) = line.commands ∧
    (∀ entry ∈ taken, entry.1.Shaped entry.2) ∧
    (arguments = taken.flatMap (·.2) ++ "--" :: line.files ∨
      arguments = taken.flatMap (·.2) ++ line.files ∧
        ∀ first ∈ line.files.head?, startsCommand first = false)

section Items

open Item

theorem escape_cons (c : Char) (text : List Char) :
    escape (c :: text) =
      (if c = '\\' ∨ c = ':' ∨ c = '=' then ['\\', c] else [c]) ++ escape text := by
  rw [escape, List.flatMap_cons]
  rfl

/-- An escaped text is read as the text itself, in front of what follows. -/
theorem scan_escape (text rest : List Char) : scan (escape text ++ rest) =
    ({ (scan rest).1 with head := text ++ (scan rest).1.head }, (scan rest).2) := by
  induction text with
  | nil => rfl
  | cons c text ih =>
    rw [escape_cons, List.append_assoc]
    by_cases hspecial : c = '\\' ∨ c = ':' ∨ c = '='
    · rw [if_pos hspecial]
      show scan ('\\' :: c :: (escape text ++ rest)) = _
      rw [scan, ih]
      rfl
    · obtain ⟨hbackslash, hcolon, hequals⟩ := by simpa only [not_or] using hspecial
      rw [if_neg hspecial, List.singleton_append, scan, ih]
      · rfl
      all_goals simp [hbackslash, hcolon, hequals]

/-- A piece is read as its item up to the end, or up to where the next item starts. -/
theorem scan_written {tail : List Char} {others : List Item} (htail : scan tail = ({}, others))
    (piece : Piece) : scan (piece.written ++ tail) = (piece.item, others) := by
  cases piece with
  | operand value =>
    rw [Piece.written, scan_escape, htail]
    simp [Piece.item]
  | setting key value =>
    have hvalue : scan ('=' :: (escape value.text.toList ++ tail)) =
        ({ tail? := some value.text.toList }, others) := by
      rw [scan, scan_escape, htail]
      simp [pushEquals, Item.text]
    rw [Piece.written, List.append_assoc, List.cons_append, scan_escape, hvalue]
    simp [Piece.item]

theorem split_joined {pieces : List Piece} (hpieces : pieces ≠ []) :
    split (joined pieces) = pieces.map Piece.item := by
  have hscan (piece : Piece) (rest : List Piece) :
      scan ([':'].intercalate ((piece :: rest).map Piece.written)) =
        (piece.item, rest.map Piece.item) := by
    induction rest generalizing piece with
    | nil =>
      have hlast : scan (piece.written ++ []) = (piece.item, []) := scan_written rfl piece
      rw [List.append_nil] at hlast
      simpa using hlast
    | cons next rest ih =>
      have htail : scan (':' :: [':'].intercalate ((next :: rest).map Piece.written)) =
          ({}, (next :: rest).map Piece.item) := by
        rw [scan, ih next]
        rfl
      rw [List.map_cons, List.map_cons, List.intercalate_cons_cons, List.append_assoc]
      exact scan_written htail piece
  cases pieces with
  | nil => exact absurd rfl hpieces
  | cons piece rest =>
    rw [split, joined, String.toList_ofList, hscan]
    rfl

end Items

namespace Form

variable {form : Form}

theorem setting?_operand (value : Operand) : form.setting? (Piece.operand value).item = none := rfl

theorem setting?_setting {key : String} {kind : Kind} (hkind : form.keyedKind? key = some kind)
    (value : Operand) :
    form.setting? (Piece.setting key value).item = some (key, kind, value) := by
  simp [setting?, Piece.item, hkind]

theorem gather_items {pieces : List Piece} {start : Command}
    (hdeclared : ∀ key value, (key, value) ∈ pieces.filterMap Piece.setting? →
      ∃ kind, form.keyedKind? key = some kind ∧ kind.objection? value = none)
    (hnodup : ((pieces.filterMap Piece.setting?).map (·.1)).Nodup)
    (hfresh : ∀ key ∈ (pieces.filterMap Piece.setting?).map (·.1),
      start.settings.contains key = false) :
    form.gather (pieces.map Piece.item) start = .ok { start with
      operands := start.operands ++ pieces.filterMap Piece.operand?
      settings := (pieces.filterMap Piece.setting?).foldl
        (fun settings (key, value) => settings.insert key value) start.settings } := by
  induction pieces generalizing start with
  | nil => simp [gather]
  | cons piece rest ih =>
    cases piece with
    | operand value =>
      have htext : (⟨String.ofList (Piece.operand value).item.text⟩ : Operand) = value := by
        simp [Piece.item, Item.text]
      have hrest := @ih { start with operands := start.operands ++ [value] } hdeclared hnodup hfresh
      rw [List.map_cons, gather, setting?_operand]
      simp only [htext]
      rw [hrest, List.append_assoc]
      rfl
    | setting key value =>
      have hsettings : (Piece.setting key value :: rest).filterMap Piece.setting? =
          (key, value) :: rest.filterMap Piece.setting? := rfl
      rw [hsettings] at hdeclared hnodup hfresh
      rw [List.map_cons] at hnodup hfresh
      obtain ⟨hkey, hnodup⟩ := List.nodup_cons.1 hnodup
      obtain ⟨kind, hkind, hvalue⟩ := hdeclared key value List.mem_cons_self
      rw [List.map_cons, gather, setting?_setting hkind]
      simp only [hvalue, hfresh key List.mem_cons_self, Bool.false_eq_true, if_false]
      rw [@ih { start with settings := start.settings.insert key value }]
      · rfl
      · exact fun other found hmem => hdeclared other found (List.mem_cons_of_mem _ hmem)
      · exact hnodup
      · intro other hmem
        have hne : other ≠ key := by
          rintro rfl
          exact hkey hmem
        rw [SortedMap.contains, SortedMap.get?_insert_of_ne hne]
        exact hfresh other (List.mem_cons_of_mem _ hmem)

theorem checkFrom_eq_ok {operands : List Operand} {start : Nat}
    (hfits : ∀ index operand, operands[index]? = some operand →
      (form.kindAt (start + index)).objection? operand = none) :
    form.checkFrom start operands = .ok () := by
  induction operands generalizing start with
  | nil => rfl
  | cons first rest ih =>
    have hfirst : (form.kindAt start).objection? first = none := hfits 0 first rfl
    rw [checkFrom]
    simp only [hfirst]
    refine ih fun index operand hget => ?_
    rw [Nat.add_assoc, Nat.add_comm 1 index]
    exact hfits (index + 1) operand hget

theorem one_le_least {form : Form} (hmem : form ∈ vocabulary) (hvalues : form.takesValues = true) :
    1 ≤ form.least := by
  have hall : ∀ form ∈ vocabulary, form.takesValues = true → 1 ≤ form.least := by decide
  exact hall form hmem hvalues

end Form

theorem Verb.form_mem (verb : Verb) : verb.form ∈ vocabulary ∧ verb.form.verb = verb := by
  obtain ⟨form, hmem, rfl⟩ := vocabulary_complete verb
  rw [form_verb_of_mem hmem]
  exact ⟨hmem, rfl⟩

namespace Command

variable {command : Command} {pieces : List Piece}

theorem MadeOf.ne_nil (hmade : command.MadeOf pieces) (hadmitted : command.Admitted)
    (hvalues : command.verb.form.takesValues = true) : pieces ≠ [] := by
  rintro rfl
  have hleast := Form.one_le_least command.verb.form_mem.1 hvalues
  have hlength := hadmitted.least_le
  rw [← hmade.operands] at hlength
  simp only [List.filterMap_nil, List.length_nil] at hlength
  omega

/-- The settings that are found among the pieces of a command are its settings. -/
theorem MadeOf.ofList_settings (hmade : command.MadeOf pieces) :
    SortedMap.ofList (pieces.filterMap Piece.setting?) = command.settings :=
  SortedMap.ofList_of_perm hmade.settings

theorem command_joined (hmade : command.MadeOf pieces) (hadmitted : command.Admitted)
    (hvalues : command.verb.form.takesValues = true) :
    command.verb.form.command (joined pieces) = .ok command := by
  have hgather : command.verb.form.gather (pieces.map Piece.item) { verb := command.verb } =
      .ok command := by
    rw [Form.gather_items]
    · show Except.ok { command with
        operands := [] ++ pieces.filterMap Piece.operand?
        settings := SortedMap.ofList (pieces.filterMap Piece.setting?) } = _
      rw [hmade.ofList_settings, hmade.operands, List.nil_append]
    · intro key value hmem
      exact hadmitted.settings key value (SortedMap.get?_of_mem (hmade.settings.mem_iff.1 hmem))
    · exact (hmade.settings.map (·.1)).nodup_iff.2 command.settings.nodup_keys
    · intro key _
      rfl
  have hcheck : command.verb.form.checkFrom 0 command.operands = .ok () := by
    refine Form.checkFrom_eq_ok fun index operand hget => ?_
    rw [Nat.zero_add]
    exact hadmitted.operands hget
  rw [Form.command, split_joined (hmade.ne_nil hadmitted hvalues), command.verb.form_mem.2, hgather]
  show (if command.verb.form.allows command.operands.length then _ else _) = _
  rw [if_pos hadmitted.allows, hcheck]
  rfl

theorem eq_of_flag (hadmitted : command.Admitted)
    (hflag : command.verb.form.takesValues = false) : command = { verb := command.verb } := by
  obtain ⟨verb, operands, settings⟩ := command
  have hbare : ∀ form ∈ vocabulary, form.takesValues = false →
      form.most = some 0 ∧ form.keyed = [] := by decide
  obtain ⟨hmost, hkeyed⟩ := hbare verb.form verb.form_mem.1 hflag
  have hoperands : operands = [] :=
    List.eq_nil_of_length_eq_zero (Nat.le_zero.1 (hadmitted.le_most hmost))
  have hsettings : settings = ∅ := by
    apply SortedMap.ext_get?
    intro key
    cases hget : settings.get? key with
    | none => rfl
    | some value =>
      obtain ⟨kind, hkind, -⟩ := hadmitted.settings key value hget
      rw [Form.keyedKind?, hkeyed] at hkind
      cases hkind
  rw [hoperands, hsettings]

end Command

section Lines

theorem names_spec (verb : Verb) : ∀ token ∈ verb.names,
    (form? token).map Form.verb = some verb ∧ startsCommand token = true ∧ token ≠ "--" := by
  have hall : ∀ verb ∈ Verb.all, ∀ token ∈ verb.names,
      (form? token).map Form.verb = some verb ∧ startsCommand token = true ∧ token ≠ "--" := by
    decide +kernel
  exact hall verb verb.mem_all

theorem form?_of_mem_names {verb : Verb} {token : String} (hname : token ∈ verb.names) :
    form? token = some verb.form := by
  obtain ⟨form, hform, hverb⟩ := Option.map_eq_some_iff.1 (names_spec verb token hname).1
  rw [hform, ← hverb, form_verb_of_mem (mem_vocabulary_of_form? hform)]

theorem mem_names_of_form? {token : String} {form : Form} (hform : form? token = some form) :
    token ∈ form.verb.names := by
  rw [form?] at hform
  split at hform
  next name hname =>
    have hlong := List.find?_some hform
    rw [decide_eq_true_eq] at hlong
    have htoken : token = "--" ++ form.verb.longName := by
      rw [← String.toList_inj, hname, String.toList_append, hlong]
      rfl
    rw [htoken]
    exact List.mem_cons_of_mem _ List.mem_cons_self
  next name _ hname =>
    have hshort := List.find?_some hform
    rw [decide_eq_true_eq] at hshort
    have htoken : token = "-" ++ form.verb.shortName := by
      rw [← String.toList_inj, hname, String.toList_append, hshort]
      rfl
    rw [htoken]
    exact List.mem_cons_self
  next => cases hform

theorem read_files (files : List String) : read ("--" :: files) = .ok ⟨[], files⟩ := by
  rw [read, if_pos rfl]

/-- A written command is read, and then what comes after it. -/
theorem read_written {command : Command} {arguments : List String} (hadmitted : command.Admitted)
    (hwritten : command.Written arguments) (rest : List String) :
    read (arguments ++ rest) =
      read rest >>= fun line => .ok { line with commands := command :: line.commands } := by
  obtain ⟨token, hname, hwritten⟩ := hwritten
  obtain ⟨-, hstarts, hdashes⟩ := names_spec command.verb token hname
  have hform := form?_of_mem_names hname
  cases hvalues : command.verb.form.takesValues with
  | true =>
    rw [if_pos hvalues] at hwritten
    obtain ⟨pieces, hmade, rfl⟩ := hwritten
    have hcommand := Command.command_joined hmade hadmitted hvalues
    show read (token :: joined pieces :: rest) = _
    rw [read, if_neg hdashes, if_neg (by simp [hstarts])]
    simp only [hform, hvalues, if_true, hcommand]
    rfl
  | false =>
    rw [if_neg (by simp [hvalues])] at hwritten
    subst hwritten
    show read (token :: rest) = _
    rw [read, if_neg hdashes, if_neg (by simp [hstarts])]
    simp only [hform, hvalues, command.verb.form_mem.2]
    rw [Command.eq_of_flag hadmitted hvalues]
    rfl

theorem read_written_line {written : List (Command × List String)}
    (hwritten : ∀ entry ∈ written, entry.1.Admitted ∧ entry.1.Written entry.2)
    (files : List String) : read (written.flatMap (·.2) ++ "--" :: files) =
      .ok ⟨written.map (·.1), files⟩ := by
  induction written with
  | nil => exact read_files files
  | cons entry rest ih =>
    obtain ⟨hadmitted, hentry⟩ := hwritten entry List.mem_cons_self
    have hrest := ih fun other hmem => hwritten other (List.mem_cons_of_mem entry hmem)
    rw [List.flatMap_cons, List.append_assoc, read_written hadmitted hentry, hrest]
    rfl

/-- A command that is read has a name of its verb in front, and values if the verb takes any. -/
theorem shaped_of_form? {token : String} {form : Form} (hform : form? token = some form)
    {command : Command} (hverb : command.verb = form.verb) {values : List String}
    (hvalues : values.length = if form.takesValues then 1 else 0) :
    command.Shaped (token :: values) := by
  refine ⟨token, values, rfl, ?_, ?_⟩
  · rw [hverb]
    exact mem_names_of_form? hform
  · rw [hverb, form_verb_of_mem (mem_vocabulary_of_form? hform), hvalues]

theorem verb_of_command {form : Form} {values : String} {command : Command}
    (hcommand : form.command values = .ok command) : command.verb = form.verb := by
  obtain ⟨gathered, hgather, hcommand⟩ := Outcome.bind_eq_ok.1 hcommand
  dsimp only at hcommand
  split at hcommand
  · obtain ⟨_, -, hcommand⟩ := Outcome.bind_eq_ok.1 hcommand
    cases hcommand
    exact (Form.gather_ok hgather form.declares_empty).1
  · cases hcommand

theorem Line.TakenFrom.cons {line : Line} {arguments rest : List String} {command : Command}
    (hshaped : command.Shaped arguments) (hrest : line.TakenFrom rest) :
    Line.TakenFrom { line with commands := command :: line.commands } (arguments ++ rest) := by
  obtain ⟨taken, hcommands, hall, hfiles⟩ := hrest
  refine ⟨(command, arguments) :: taken, by rw [List.map_cons, hcommands], ?_, ?_⟩
  · intro entry hmem
    rcases List.mem_cons.1 hmem with rfl | hmem
    · exact hshaped
    · exact hall entry hmem
  · rw [List.flatMap_cons]
    rcases hfiles with rfl | ⟨rfl, hfirst⟩
    · exact .inl (List.append_assoc ..).symm
    · exact .inr ⟨(List.append_assoc ..).symm, hfirst⟩

theorem Line.takenFrom_files {files : List String}
    (hfirst : ∀ first ∈ files.head?, startsCommand first = false) :
    Line.TakenFrom ⟨[], files⟩ files :=
  ⟨[], rfl, fun _ hmem => absurd hmem List.not_mem_nil, .inr ⟨rfl, hfirst⟩⟩

theorem takenFrom_of_read {arguments : List String} {line : Line}
    (hread : read arguments = .ok line) : line.TakenFrom arguments := by
  fun_induction read arguments generalizing line with
  | case1 =>
    cases hread
    apply Line.takenFrom_files
    intro first hmem
    cases hmem
  | case2 rest =>
    cases hread
    exact ⟨[], rfl, fun _ hmem => absurd hmem List.not_mem_nil, .inl rfl⟩
  | case3 token rest hdashes hstarts =>
    cases hread
    apply Line.takenFrom_files
    intro first hmem
    cases hmem
    simpa using hstarts
  | case4 => cases hread
  | case5 => cases hread
  | case6 token _ _ form hform hvalues values rest ih =>
    obtain ⟨command, hcommand, hread⟩ := Outcome.bind_eq_ok.1 hread
    obtain ⟨tail, htail, hread⟩ := Outcome.bind_eq_ok.1 hread
    cases hread
    have hshaped : command.Shaped [token, values] :=
      shaped_of_form? hform (verb_of_command hcommand) (by simp [hvalues])
    exact (ih htail).cons hshaped
  | case7 token rest _ _ form hform hflag ih =>
    obtain ⟨tail, htail, hread⟩ := Outcome.bind_eq_ok.1 hread
    cases hread
    have hshaped : Command.Shaped { verb := form.verb } [token] :=
      shaped_of_form? hform rfl (by simp [hflag])
    exact (ih htail).cons hshaped

/-- Commands and files are read back from every way to write them. Whatever else is read, its commands
are admitted, and its files are what is left when the commands have been taken, and the dashes after
them if there are any. -/
theorem read_inverts_writing :
    (∀ (written : List (Command × List String)) (files : List String),
      (∀ entry ∈ written, entry.1.Admitted ∧ entry.1.Written entry.2) →
      read (written.flatMap (·.2) ++ "--" :: files) = .ok ⟨written.map (·.1), files⟩) ∧
    ∀ arguments line, read arguments = .ok line →
      (∀ command ∈ line.commands, command.Admitted) ∧ line.TakenFrom arguments :=
  ⟨fun _ files hwritten => read_written_line hwritten files,
    fun _ _ hread => ⟨admitted_of_read hread, takenFrom_of_read hread⟩⟩

/-- A text with escapes between its settings, and a file that looks like a command. -/
theorem read_inverts_writing_of_text :
    let text : Command := {
      verb := .text
      operands := [⟨"12:00 = noon\\"⟩, ⟨"10"⟩, ⟨"-20"⟩]
      settings := .ofList [("fc", ⟨"red"⟩), ("ff", ⟨"a:b"⟩)] }
    let fill : Command := { verb := .fill }
    let arguments := ["--text", "12\\:00 \\= noon\\\\:ff=a\\:b:10:fc=red:-20", "-f"]
    text.Admitted ∧ fill.Admitted ∧ (∃ values, text.Written ["--text", values]) ∧
      fill.Written ["-f"] ∧
      read (arguments ++ ["--", "-odd.pdf"]) = .ok ⟨[text, fill], ["-odd.pdf"]⟩ := by
  intro text fill arguments
  let pieces : List Piece := [.operand ⟨"12:00 = noon\\"⟩, .setting "ff" ⟨"a:b"⟩,
    .operand ⟨"10"⟩, .setting "fc" ⟨"red"⟩, .operand ⟨"-20"⟩]
  have htext : text.Admitted := by
    refine ⟨by decide, fun {index operand} hget => ?_, fun key value hget => ?_⟩
    · match index, hget with
      | 0, hget | 1, hget | 2, hget =>
        cases hget
        decide +kernel
    · have hmem := SortedMap.mem_of_get?_ofList hget
      simp only [List.mem_cons, Prod.mk.injEq, List.not_mem_nil, or_false] at hmem
      rcases hmem with ⟨rfl, rfl⟩ | ⟨rfl, rfl⟩
      · exact ⟨.color, rfl, by decide +kernel⟩
      · exact ⟨.text, rfl, rfl⟩
  have hfill : fill.Admitted := Form.admitted_of_flag (Verb.form_mem .fill).1 rfl
  have hmade : text.MadeOf pieces := ⟨rfl, by decide⟩
  have hvalues : text.verb.form.takesValues = true := rfl
  have htextWritten : text.Written ["--text", joined pieces] := by
    refine ⟨"--text", by decide, ?_⟩
    rw [if_pos hvalues]
    exact ⟨pieces, hmade, rfl⟩
  have hfillWritten : fill.Written ["-f"] := ⟨"-f", by decide, rfl⟩
  have hread := read_inverts_writing.1
    [(text, ["--text", joined pieces]), (fill, ["-f"])] ["-odd.pdf"] (by
      intro entry hmem
      simp only [List.mem_cons, List.not_mem_nil, or_false] at hmem
      rcases hmem with rfl | rfl
      · exact ⟨htext, htextWritten⟩
      · exact ⟨hfill, hfillWritten⟩)
  have hjoined : joined pieces = "12\\:00 \\= noon\\\\:ff=a\\:b:10:fc=red:-20" := by
    decide +kernel
  rw [hjoined] at hread
  exact ⟨htext, hfill, ⟨_, htextWritten⟩, hfillWritten, hread⟩

end Lines

end Overprint.Script
