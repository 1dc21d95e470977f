import Mathlib.Data.List.Forall2
import Mathlib.Data.List.Nodup
import Overprint.Proofs.Notation.Reading

/-!
# Records laid over others

What a record is read as, told without a reader. A slot is a place in a record with a name and with
the values that can be put there. The members of an object overlay a record if each of them names a
slot that no other names, the slots that are named have what the values of their members mean, and
the others what they had. Nothing in that depends on the order of the members. Readers of records
accept such objects, and lists, which name the slots in order.
-/

namespace Overprint.Notation

open Outcome

/-- A place in a record. -/
structure Slot (α : Type) where
  name : String
  Content : Type
  Means : Value → Content → Prop
  get : α → Content
  put : α → Content → α

variable {α : Type}

/-- The members of an object, laid over one record, make another one. -/
structure Overlay (slots : List (Slot α)) (base : α) (members : List (String × Value))
    (result : α) : Prop where
  once : (members.map Prod.fst).Nodup
  declared : ∀ name ∈ members.map Prod.fst, name ∈ slots.map Slot.name
  given : ∀ slot ∈ slots, ∀ value, (slot.name, value) ∈ members →
    slot.Means value (slot.get result)
  kept : ∀ slot ∈ slots, slot.name ∉ members.map Prod.fst → slot.get result = slot.get base

/-- The slots are the places of a record, independent of each other. -/
structure Slot.Coordinates (slots : List (Slot α)) : Prop where
  names_nodup : (slots.map Slot.name).Nodup
  ext : ∀ {left right : α}, (∀ slot ∈ slots, slot.get left = slot.get right) → left = right
  get_put : ∀ slot ∈ slots, ∀ record content, slot.get (slot.put record content) = content
  get_put_of_ne : ∀ slot ∈ slots, ∀ other ∈ slots, other.name ≠ slot.name →
    ∀ record content, other.get (slot.put record content) = other.get record

theorem Slot.Coordinates.eq_of_name {slots : List (Slot α)} (hslots : Slot.Coordinates slots)
    {slot other : Slot α} (hslot : slot ∈ slots) (hother : other ∈ slots)
    (hname : slot.name = other.name) : slot = other :=
  List.inj_on_of_nodup_map hslots.names_nodup hslot hother hname

namespace Overlay

variable {slots : List (Slot α)} {base result : α} {members others : List (String × Value)}

/-- The order of the members does not matter. -/
theorem perm (hperm : members.Perm others) (hoverlay : Overlay slots base members result) :
    Overlay slots base others result := by
  have hnames := hperm.map Prod.fst
  refine ⟨hnames.nodup_iff.1 hoverlay.once, fun name hname => ?_, fun slot hslot value hvalue => ?_,
    fun slot hslot hname => ?_⟩
  · exact hoverlay.declared name (hnames.mem_iff.2 hname)
  · exact hoverlay.given slot hslot value (hperm.mem_iff.2 hvalue)
  · exact hoverlay.kept slot hslot fun hmem => hname (hnames.mem_iff.1 hmem)

theorem perm_iff (hperm : members.Perm others) :
    Overlay slots base members result ↔ Overlay slots base others result :=
  ⟨perm hperm, perm hperm.symm⟩

variable (hslots : Slot.Coordinates slots)

include hslots

theorem nil_iff : Overlay slots base [] result ↔ result = base := by
  constructor
  · intro hoverlay
    exact hslots.ext fun slot hslot => hoverlay.kept slot hslot List.not_mem_nil
  · rintro rfl
    refine ⟨List.nodup_nil, fun name hname => ?_, fun slot _ value hvalue => ?_, fun _ _ _ => rfl⟩
    · cases hname
    · cases hvalue

/-- The first member fills its slot, and the others are laid over what that makes. -/
theorem cons_iff {slot : Slot α} (hslot : slot ∈ slots) {value : Value} :
    Overlay slots base ((slot.name, value) :: members) result ↔
      slot.name ∉ members.map Prod.fst ∧
        ∃ content, slot.Means value content ∧
          Overlay slots (slot.put base content) members result := by
  constructor
  · intro hoverlay
    obtain ⟨hfresh, hnodup⟩ := List.nodup_cons.1 hoverlay.once
    refine ⟨hfresh, slot.get result, hoverlay.given slot hslot value List.mem_cons_self, hnodup,
      fun name hname => hoverlay.declared name (List.mem_cons_of_mem _ hname),
      fun other hother found hfound =>
        hoverlay.given other hother found (List.mem_cons_of_mem _ hfound),
      fun other hother hname => ?_⟩
    by_cases heq : other.name = slot.name
    · cases hslots.eq_of_name hother hslot heq
      rw [hslots.get_put slot hslot]
    · rw [hslots.get_put_of_ne slot hslot other hother heq]
      refine hoverlay.kept other hother fun hmem => ?_
      rcases List.mem_cons.1 hmem with hmem | hmem
      · exact heq hmem
      · exact hname hmem
  · rintro ⟨hfresh, content, hmeans, hoverlay⟩
    refine ⟨List.nodup_cons.2 ⟨hfresh, hoverlay.once⟩, fun name hname => ?_,
      fun other hother found hfound => ?_, fun other hother hname => ?_⟩
    · rcases List.mem_cons.1 hname with rfl | hname
      · exact List.mem_map_of_mem hslot
      · exact hoverlay.declared name hname
    · rcases List.mem_cons.1 hfound with heq | hfound
      · obtain ⟨hname, rfl⟩ := Prod.mk.inj heq
        cases hslots.eq_of_name hother hslot hname
        rw [hoverlay.kept slot hslot hfresh, hslots.get_put slot hslot]
        exact hmeans
      · exact hoverlay.given other hother found hfound
    · obtain ⟨hne, hrest⟩ := not_or.1 (mt List.mem_cons.2 hname)
      rw [hoverlay.kept other hother hrest, hslots.get_put_of_ne slot hslot other hother hne]

/-- A member can be exchanged for one with a value that means the same. -/
theorem exchange_iff {slot : Slot α} (hslot : slot ∈ slots) {value other : Value}
    (hmeans : ∀ content, slot.Means value content ↔ slot.Means other content)
    {before after : List (String × Value)} :
    Overlay slots base (before ++ (slot.name, value) :: after) result ↔
      Overlay slots base (before ++ (slot.name, other) :: after) result := by
  rw [perm_iff List.perm_middle, perm_iff List.perm_middle, cons_iff hslots hslot,
    cons_iff hslots hslot]
  simp only [hmeans]

end Overlay

/-- A name occurs twice among the members, or is the name of no slot. -/
def Misnamed (slots : List (Slot α)) (members : List (String × Value)) : Prop :=
  ¬ (members.map Prod.fst).Nodup ∨ ∃ name ∈ members.map Prod.fst, name ∉ slots.map Slot.name

theorem Overlay.not_misnamed {slots : List (Slot α)} {base result : α}
    {members : List (String × Value)} (hoverlay : Overlay slots base members result) :
    ¬ Misnamed slots members := by
  rintro (hrepeated | ⟨name, hname, hunknown⟩)
  · exact hrepeated hoverlay.once
  · exact hunknown (hoverlay.declared name hname)

structure Fills (slot : Slot α) (field : Reader.Field α) : Prop where
  name_eq : field.name = slot.name
  read_eq_ok : ∀ {record next : α} {tokens rest : List Token},
    field.read record tokens = .ok (next, rest) ↔
      ∃ value content, slot.Means value content ∧ next = slot.put record content ∧
        tokens = value.tokens ++ rest

/-- The value is a record: an object that overlays another record, or a list of the contents of its
slots from the first one on. -/
def IsRecord (slots : List (Slot α)) (base : α) (value : Value) (result : α) : Prop :=
  match value with
  | .object members => Overlay slots base members result
  | .list items =>
    items.length ≤ slots.length ∧ Overlay slots base ((slots.map Slot.name).zip items) result
  | _ => False

namespace Reader

theorem separated_eq_ok {β : Type} {first : Bool} {tokens : List Token}
    {next : List Token → Except NotationFault β} {result : β} :
    (do
      let tokens ← if first then pure tokens else skip .comma tokens
      next tokens) = .ok result ↔
      ∃ rest, tokens = Value.separator first ++ rest ∧ next rest = .ok result := by
  cases first with
  | true =>
    constructor
    · intro h
      exact ⟨tokens, rfl, h⟩
    · rintro ⟨rest, rfl, h⟩
      exact h
  | false =>
    constructor
    · intro h
      have hskipped : skip .comma tokens >>= next = .ok result := h
      obtain ⟨rest, hskip, hnext⟩ := bind_eq_ok.1 hskipped
      exact ⟨rest, skip_eq_ok.1 hskip, hnext⟩
    · rintro ⟨rest, rfl, hnext⟩
      exact hnext

theorem nextKey?_eq_none {first : Bool} {tokens rest : List Token} :
    nextKey? first tokens = .ok (none, rest) ↔ tokens = .closeObject :: rest := by
  constructor
  · intro h
    rw [nextKey?.eq_def] at h
    split at h
    · cases h
    · cases h
      rfl
    · obtain ⟨after, -, h⟩ := separated_eq_ok.1 h
      obtain ⟨⟨name, tail⟩, -, h⟩ := bind_eq_ok.1 h
      cases h
  · rintro rfl
    rfl

theorem key_eq_ok {tokens rest : List Token} {name : String} :
    key tokens = .ok (name, rest) ↔ tokens = .text name :: rest := by
  constructor
  · intro h
    rw [key.eq_def] at h
    split at h <;> cases h
    rfl
  · rintro rfl
    rfl

theorem nextKey?_eq_some {first : Bool} {tokens rest : List Token} {name : String} :
    nextKey? first tokens = .ok (some name, rest) ↔
      tokens = Value.separator first ++ .text name :: rest := by
  constructor
  · intro h
    rw [nextKey?.eq_def] at h
    split at h
    · cases h
    · cases h
    · obtain ⟨after, hseparator, h⟩ := separated_eq_ok.1 h
      obtain ⟨⟨found, tail⟩, hkey, h⟩ := bind_eq_ok.1 h
      cases h
      rw [hseparator, key_eq_ok.1 hkey]
  · rintro rfl
    cases first <;> rfl

variable {slots remaining : List (Slot α)} {fields : List (Field α)}

/-- What one step reads: the end of the object, or a member for one of the fields. -/
theorem members_step {first : Bool} {record result : α} {tokens rest : List Token} :
    members fields first record tokens = .ok (result, rest) ↔
      (tokens = .closeObject :: rest ∧ result = record) ∨
        ∃ name field next middle after,
          fields.find? (·.name = name) = some field ∧
          tokens = Value.separator first ++ .text name :: .colon :: middle ∧
          field.read record middle = .ok (next, after) ∧
          members (Field.without name fields) false next after = .ok (result, rest) := by
  rw [members]
  constructor
  · intro h
    obtain ⟨⟨name?, afterKey⟩, hkey, h⟩ := bind_eq_ok.1 h
    cases name? with
    | none =>
      cases h
      exact .inl ⟨nextKey?_eq_none.1 hkey, rfl⟩
    | some name =>
      dsimp only at h
      split at h
      next => cases h
      next field hfound =>
        obtain ⟨middle, hcolon, hmember⟩ := bind_eq_ok.1 h
        obtain ⟨⟨next, after⟩, hread, hrest⟩ := bind_eq_ok.1 hmember
        cases skip_eq_ok.1 hcolon
        exact .inr ⟨name, field, next, middle, after, hfound, nextKey?_eq_some.1 hkey, hread, hrest⟩
  · rintro (⟨rfl, rfl⟩ | ⟨name, field, next, middle, after, hfound, rfl, hread, hrest⟩)
    · rfl
    · refine bind_eq_ok.2 ⟨(some name, _), nextKey?_eq_some.2 rfl, ?_⟩
      dsimp only
      split
      next hnone =>
        rw [hfound] at hnone
        cases hnone
      next found hfound' =>
        cases hfound.symm.trans hfound'
        refine bind_eq_ok.2 ⟨middle, skip_eq_ok.2 rfl, ?_⟩
        exact bind_eq_ok.2 ⟨(next, after), hread, hrest⟩

/-- The field that is found by a name fills the slot of that name. -/
theorem exists_of_find? (hfills : List.Forall₂ Fills remaining fields) {name : String}
    {field : Field α} (hfound : fields.find? (·.name = name) = some field) :
    ∃ slot ∈ remaining, slot.name = name ∧ Fills slot field := by
  induction hfills with
  | nil => cases hfound
  | @cons slot first _ _ hfirst _ ih =>
    by_cases hname : first.name = name
    · rw [List.find?_cons_of_pos (by simpa using hname)] at hfound
      cases hfound
      exact ⟨slot, List.mem_cons_self, hfirst.name_eq.symm.trans hname, hfirst⟩
    · rw [List.find?_cons_of_neg (by simpa using hname)] at hfound
      obtain ⟨other, hother, hfill⟩ := ih hfound
      exact ⟨other, List.mem_cons_of_mem _ hother, hfill⟩

theorem exists_find?_of_mem (hfills : List.Forall₂ Fills remaining fields) {slot : Slot α}
    (hslot : slot ∈ remaining) : ∃ field, fields.find? (·.name = slot.name) = some field := by
  induction hfills with
  | nil => cases hslot
  | @cons head first _ _ hfirst _ ih =>
    by_cases hname : first.name = slot.name
    · exact ⟨first, List.find?_cons_of_pos (by simpa using hname)⟩
    · rw [List.find?_cons_of_neg (by simpa using hname)]
      rcases List.mem_cons.1 hslot with rfl | hslot
      · exact absurd hfirst.name_eq hname
      · exact ih hslot

/-- Fields and slots stay together when those of a name are taken away. -/
theorem fills_without (hfills : List.Forall₂ Fills remaining fields) (name : String) :
    List.Forall₂ Fills (remaining.filter (·.name ≠ name)) (Field.without name fields) :=
  List.rel_filter (fun slot field hfill => by simp [hfill.name_eq]) hfills

theorem mem_names_filter {name other : String} :
    other ∈ (remaining.filter (·.name ≠ name)).map Slot.name ↔
      other ∈ remaining.map Slot.name ∧ other ≠ name := by
  simp only [List.mem_map, List.mem_filter, decide_eq_true_eq]
  constructor
  · rintro ⟨slot, ⟨hslot, hne⟩, rfl⟩
    exact ⟨⟨slot, hslot, rfl⟩, hne⟩
  · rintro ⟨⟨slot, hslot, rfl⟩, hne⟩
    exact ⟨slot, ⟨hslot, hne⟩, rfl⟩

/-- The members of an object are read if they overlay the record and name slots that are left.
Each member takes a field away, so no name comes twice. -/
theorem members_eq_ok (hslots : Slot.Coordinates slots) {remaining : List (Slot α)}
    {fields : List (Field α)} (hsub : remaining ⊆ slots)
    (hfills : List.Forall₂ Fills remaining fields) {first : Bool} {record result : α}
    {tokens rest : List Token} :
    members fields first record tokens = .ok (result, rest) ↔
      ∃ given, tokens = Value.memberTokens first given ++ rest ∧
        (∀ name ∈ given.map Prod.fst, name ∈ remaining.map Slot.name) ∧
        Overlay slots record given result := by
  rw [members_step]
  constructor
  · rintro (⟨rfl, rfl⟩ | ⟨name, field, next, middle, after, hfound, rfl, hread, hrest⟩)
    · refine ⟨[], rfl, fun name hname => ?_, (Overlay.nil_iff hslots).2 rfl⟩
      cases hname
    · obtain ⟨slot, hslot, rfl, hfill⟩ := exists_of_find? hfills hfound
      obtain ⟨value, content, hmeans, rfl, rfl⟩ := hfill.read_eq_ok.1 hread
      obtain ⟨given, rfl, hnames, hoverlay⟩ :=
        (members_eq_ok hslots (List.Subset.trans (List.filter_subset_self remaining) hsub)
          (fills_without hfills slot.name)).1 hrest
      refine ⟨(slot.name, value) :: given, ?_, fun other hother => ?_,
        (Overlay.cons_iff hslots (hsub hslot)).2 ⟨fun hmem => ?_, content, hmeans, hoverlay⟩⟩
      · simp only [Value.memberTokens, List.append_assoc, List.cons_append]
      · rcases List.mem_cons.1 hother with rfl | hother
        · exact List.mem_map_of_mem hslot
        · exact (mem_names_filter.1 (hnames other hother)).1
      · exact (mem_names_filter.1 (hnames _ hmem)).2 rfl
  · rintro ⟨given, rfl, hnames, hoverlay⟩
    cases given with
    | nil => exact .inl ⟨rfl, (Overlay.nil_iff hslots).1 hoverlay⟩
    | cons member given =>
      obtain ⟨name, value⟩ := member
      obtain ⟨slot, hslot, rfl⟩ := List.mem_map.1 (hnames name List.mem_cons_self)
      obtain ⟨hfresh, content, hmeans, hoverlay⟩ :=
        (Overlay.cons_iff hslots (hsub hslot)).1 hoverlay
      obtain ⟨field, hfound⟩ := exists_find?_of_mem hfills hslot
      obtain ⟨other, hother, hname, hfill⟩ := exists_of_find? hfills hfound
      cases hslots.eq_of_name (hsub hother) (hsub hslot) hname
      refine .inr ⟨slot.name, field, slot.put record content,
        value.tokens ++ (Value.memberTokens false given ++ rest),
        Value.memberTokens false given ++ rest, hfound, ?_,
        hfill.read_eq_ok.2 ⟨value, content, hmeans, rfl, rfl⟩, ?_⟩
      · simp only [Value.memberTokens, List.append_assoc, List.cons_append]
      · refine (members_eq_ok hslots (List.Subset.trans (List.filter_subset_self remaining) hsub)
          (fills_without hfills slot.name)).2 ⟨given, rfl, fun other hother => ?_, hoverlay⟩
        refine mem_names_filter.2 ⟨hnames other (List.mem_cons_of_mem _ hother), ?_⟩
        rintro rfl
        exact hfresh hother
termination_by fields.length
decreasing_by all_goals exact Field.length_without_lt hfound

/-- No value starts with the end of a list, so it is an item where one may stand. -/
theorem items_value {first : Bool} {record : α} {field : Field α} {value : Value}
    {rest : List Token} :
    items first record (field :: fields) (Value.separator first ++ (value.tokens ++ rest)) =
      field.read record (value.tokens ++ rest) >>= fun (next, after) =>
        items false next fields after := by
  cases first <;> cases value <;> rfl

theorem items_nil_of_ok {first : Bool} {record result : α} {tokens rest : List Token}
    (h : items first record [] tokens = .ok (result, rest)) :
    tokens = .closeList :: rest ∧ result = record := by
  cases tokens with
  | nil => cases h
  | cons token tail =>
    cases token <;> cases h
    exact ⟨rfl, rfl⟩

theorem items_cons_of_ok {first : Bool} {record result : α} {field : Field α}
    {tokens rest : List Token}
    (h : items first record (field :: fields) tokens = .ok (result, rest)) :
    (tokens = .closeList :: rest ∧ result = record) ∨
      ∃ middle next after, tokens = Value.separator first ++ middle ∧
        field.read record middle = .ok (next, after) ∧
        items false next fields after = .ok (result, rest) := by
  rw [items.eq_def] at h
  split at h
  · cases h
  · cases h
    exact .inl ⟨rfl, rfl⟩
  · contradiction
  next heq _ _ =>
    cases heq
    obtain ⟨middle, hmiddle, hitem⟩ := separated_eq_ok.1 h
    split at hitem
    · cases hitem
    · obtain ⟨⟨next, after⟩, hread, hitems⟩ := bind_eq_ok.1 hitem
      exact .inr ⟨middle, next, after, hmiddle, hread, hitems⟩

/-- The items of a list are read if they overlay the record as contents of the slots that are left,
in their order. -/
theorem items_eq_ok (hslots : Slot.Coordinates slots) (hnodup : (remaining.map Slot.name).Nodup)
    (hsub : remaining ⊆ slots) (hfills : List.Forall₂ Fills remaining fields) {first : Bool}
    {record result : α} {tokens rest : List Token} :
    items first record fields tokens = .ok (result, rest) ↔
      ∃ given, tokens = Value.itemTokens first given ++ rest ∧
        given.length ≤ remaining.length ∧
        Overlay slots record ((remaining.map Slot.name).zip given) result := by
  induction hfills generalizing first record tokens with
  | nil =>
    constructor
    · intro h
      obtain ⟨rfl, rfl⟩ := items_nil_of_ok h
      exact ⟨[], rfl, Nat.le_refl 0, (Overlay.nil_iff hslots).2 rfl⟩
    · rintro ⟨given, rfl, hlength, hoverlay⟩
      cases List.length_eq_zero_iff.1 (Nat.le_zero.1 hlength)
      rw [(Overlay.nil_iff hslots).1 hoverlay]
      rfl
  | @cons slot field others fields hfill hfills ih =>
    obtain ⟨hfresh, hnodup⟩ := List.nodup_cons.1 hnodup
    obtain ⟨hslot, hsub⟩ := List.cons_subset.1 hsub
    have hzip (given : List Value) :
        slot.name ∉ ((others.map Slot.name).zip given).map Prod.fst := fun hmem => by
      obtain ⟨pair, hpair, hname⟩ := List.mem_map.1 hmem
      exact hfresh (hname ▸ (List.of_mem_zip hpair).1)
    constructor
    · intro h
      rcases items_cons_of_ok h with ⟨rfl, rfl⟩ | ⟨middle, next, after, rfl, hread, hitems⟩
      · exact ⟨[], rfl, Nat.zero_le _, (Overlay.nil_iff hslots).2 rfl⟩
      · obtain ⟨value, content, hmeans, rfl, rfl⟩ := hfill.read_eq_ok.1 hread
        obtain ⟨given, rfl, hlength, hoverlay⟩ := (ih hnodup hsub).1 hitems
        refine ⟨value :: given, ?_, Nat.succ_le_succ hlength,
          (Overlay.cons_iff hslots hslot).2 ⟨hzip given, content, hmeans, hoverlay⟩⟩
        simp only [Value.itemTokens, List.append_assoc]
    · rintro ⟨given, rfl, hlength, hoverlay⟩
      cases given with
      | nil =>
        rw [(Overlay.nil_iff hslots).1 hoverlay]
        rfl
      | cons value given =>
        obtain ⟨-, content, hmeans, hoverlay⟩ := (Overlay.cons_iff hslots hslot).1 hoverlay
        simp only [Value.itemTokens, List.append_assoc]
        rw [items_value]
        refine bind_eq_ok.2 ⟨(slot.put record content, _),
          hfill.read_eq_ok.2 ⟨value, content, hmeans, rfl, rfl⟩, ?_⟩
        exact (ih hnodup hsub).2 ⟨given, rfl, Nat.le_of_succ_le_succ hlength, hoverlay⟩

theorem reads_record (hslots : Slot.Coordinates slots) (hfills : List.Forall₂ Fills slots fields)
    (base : α) : Reads (record fields base) (IsRecord slots base) := by
  intro tokens result rest
  constructor
  · intro h
    rw [record.eq_def] at h
    split at h
    · cases h
    · obtain ⟨given, rfl, -, hoverlay⟩ :=
        (members_eq_ok hslots (List.Subset.refl slots) hfills).1 h
      exact ⟨.object given, hoverlay, rfl⟩
    · obtain ⟨given, rfl, hlength, hoverlay⟩ :=
        (items_eq_ok hslots hslots.names_nodup (List.Subset.refl slots) hfills).1 h
      exact ⟨.list given, ⟨hlength, hoverlay⟩, rfl⟩
    · cases h
  · rintro ⟨value, hrecord, rfl⟩
    cases value with
    | object given =>
      have hoverlay : Overlay slots base given result := hrecord
      exact (members_eq_ok hslots (List.Subset.refl slots) hfills).2
        ⟨given, rfl, hoverlay.declared, hoverlay⟩
    | list given =>
      exact (items_eq_ok hslots hslots.names_nodup (List.Subset.refl slots) hfills).2
        ⟨given, rfl, hrecord.1, hrecord.2⟩
    | _ => exact hrecord.elim

end Reader

end Overprint.Notation
