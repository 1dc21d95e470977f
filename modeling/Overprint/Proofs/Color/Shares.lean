import Overprint.Color.Rgb
import Overprint.Proofs.Number.Magnitude
import Overprint.Proofs.Text.Pieces

/-!
# Colours are shares of one

The three numbers of a colour lie from zero to one, whichever way the colour is written, with one
exception: a number in `rgb(...)` may be the word for what is not a number, and that is not moved
into the range. Every other number is, infinite ones included.
-/

namespace Overprint

open Number

-- Powers of natural numbers are those of core, whatever else is imported.
attribute [local instance (2000)] instPowNat

namespace Number

namespace Binary

variable {F : Format} {x y : Binary F} {i j : Int}

theorem lessEq_iff (hx : x.toUnits? = some i) (hy : y.toUnits? = some j) :
    Scalar.lessEq x y = true ↔ i ≤ j := by
  show (x.less y || x.equal y) = true ↔ i ≤ j
  rw [Bool.or_eq_true, less_iff hx hy, equal_iff hx hy]
  omega

theorem round_ne_nan {negative : Bool} {numerator denominator : Nat} (hpos : 0 < denominator) :
    (round negative numerator denominator : Binary F) ≠ nan := by
  rw [round, dif_pos hpos]
  intro hnan
  split at hnan
  · cases hnan
  · cases hnan

/-- A quotient by a finite number other than zero is a number if what is divided is one. -/
theorem div_eq_nan_iff {negative : Bool} {units : Nat} {h : F.Representable units}
    (hzero : units ≠ 0) : x / finite negative units h = nan ↔ x = nan := by
  cases x with
  | nan => exact ⟨fun _ => rfl, fun _ => rfl⟩
  | infinite sign => exact ⟨nofun, nofun⟩
  | finite sign count hcount =>
    rw [div_finite hzero]
    simp only [round_ne_nan (Nat.pos_of_ne_zero hzero), reduceCtorEq]

/-- Only the word for it is read as what is not a number. -/
theorem ofNumeral_eq_nan_iff {numeral : Numeral} :
    (ofNumeral numeral : Binary F) = nan ↔ numeral = .nan := by
  cases numeral with
  | nan => exact ⟨fun _ => rfl, fun _ => rfl⟩
  | infinite negative => exact ⟨nofun, nofun⟩
  | decimal negative digits exponent =>
    refine ⟨fun hnan => absurd hnan ?_, nofun⟩
    rw [ofNumeral]
    split
    · nofun
    · split
      · split
        · nofun
        · exact round_ne_nan Nat.one_pos
      · split
        · nofun
        · exact round_ne_nan (Nat.pow_pos (by decide))

end Binary

namespace Numeral

theorem unsigned?_eq_nan_iff {negative : Bool} {cs : List Char} :
    unsigned? negative cs = some .nan ↔ cs.map Char.toLower = "nan".toList := by
  rw [unsigned?]
  dsimp only
  split
  next hword => exact ⟨fun _ => hword, fun _ => rfl⟩
  next hword =>
    refine ⟨fun hnan => ?_, fun heq => absurd heq hword⟩
    split at hnan
    · cases hnan
    · split at hnan
      all_goals
        split at hnan
        · cases hnan
        · obtain ⟨exponent, -, hdecimal⟩ := Option.map_eq_some_iff.1 hnan
          cases hdecimal

/-- The word for what is not a number, without a sign and with one. -/
def nanForms : List (List Char) := ["nan".toList, "+nan".toList, "-nan".toList]

theorem read?_eq_nan_iff {cs : List Char} (hsmall : ∀ c ∈ cs, c.toLower = c) :
    read? cs = some .nan ↔ cs ∈ nanForms := by
  have hword {rest : List Char} (hrest : ∀ c ∈ rest, c.toLower = c) (negative : Bool) :
      unsigned? negative rest = some .nan ↔ rest = "nan".toList := by
    rw [unsigned?_eq_nan_iff, List.map_congr_left hrest, List.map_id']
  rw [read?]
  fun_cases splitSign cs with
  | case1 rest =>
    show unsigned? true rest = some .nan ↔ _
    rw [hword fun c hmem => hsmall c (List.mem_cons_of_mem _ hmem)]
    simp [nanForms]
  | case2 rest =>
    show unsigned? false rest = some .nan ↔ _
    rw [hword fun c hmem => hsmall c (List.mem_cons_of_mem _ hmem)]
    simp [nanForms]
  | case3 _ hminus hplus =>
    show unsigned? false cs = some .nan ↔ _
    have hne : cs ≠ "+nan".toList ∧ cs ≠ "-nan".toList :=
      ⟨fun h => hplus _ h, fun h => hminus _ h⟩
    rw [hword hsmall]
    simp only [nanForms, List.mem_cons, hne, List.not_mem_nil, or_false]

end Numeral

end Number

namespace Color

open Binary

/-- The number lies from zero to one. -/
def IsShare (x : Single) : Prop :=
  Scalar.lessEq 0.0 x = true ∧ Scalar.lessEq x 1.0 = true

instance : DecidablePred IsShare :=
  fun _ => inferInstanceAs (Decidable (_ ∧ _))

theorem toUnits?_zero : (0.0 : Single).toUnits? = some 0 := by
  decide +kernel

theorem toUnits?_one : (1.0 : Single).toUnits? = some (Format.single.one : Nat) := by
  decide +kernel

theorem IsShare.isFinite {x : Single} (hx : IsShare x) : x.isFinite = true := by
  cases x with
  | finite negative units h => rfl
  | nan => exact absurd hx (by decide +kernel)
  | infinite negative =>
    have hnot : ∀ negative, ¬ IsShare (infinite negative) := by decide +kernel
    exact absurd hx (hnot negative)

/-- What is moved into the range lies there, unless it is not a number. -/
theorem clamp_isShare {x : Single} (hx : x ≠ nan) : IsShare (Scalar.clamp x 0.0 1.0) := by
  cases x with
  | nan => exact absurd rfl hx
  | infinite negative =>
    have hmoved : ∀ negative, IsShare (Scalar.clamp (infinite negative) 0.0 1.0) := by
      decide +kernel
    exact hmoved negative
  | finite negative units h =>
    obtain ⟨i, hi, -⟩ := exists_toUnits? (x := finite negative units h) rfl
    generalize finite negative units h = x at *
    have hends : IsShare 0.0 ∧ IsShare 1.0 ∧ Binary.less (1.0 : Single) 0.0 = false := by
      decide +kernel
    have hclamp : Scalar.clamp x 0.0 1.0 =
        if Binary.less 1.0 (if Binary.less x 0.0 then 0.0 else x) then 1.0
        else if Binary.less x 0.0 then 0.0 else x := rfl
    rw [hclamp]
    by_cases hlow : Binary.less x 0.0 = true
    · rw [if_pos hlow, if_neg (by rw [hends.2.2]; decide)]
      exact hends.1
    · rw [if_neg hlow]
      by_cases hhigh : Binary.less 1.0 x = true
      · rw [if_pos hhigh]
        exact hends.2.1
      · rw [if_neg hhigh]
        rw [less_iff hi toUnits?_zero] at hlow
        rw [less_iff toUnits?_one hi] at hhigh
        exact ⟨(lessEq_iff toUnits?_zero hi).2 (by omega), (lessEq_iff hi toUnits?_one).2 (by omega)⟩

theorem isShare_round {numerator denominator : Nat} (hpos : 0 < denominator)
    (hle : numerator ≤ denominator * Format.single.one) :
    IsShare (Binary.round false numerator denominator) := by
  have hone : Format.single.Representable Format.single.one := by decide +kernel
  have hnearest := Format.nearest_le hpos hone.2 hle
  rw [Binary.round, dif_pos hpos, dif_pos (Nat.lt_of_le_of_lt hnearest hone.1)]
  exact ⟨(lessEq_iff toUnits?_zero rfl).2 (Int.natCast_nonneg _),
    (lessEq_iff rfl toUnits?_one).2 (Int.ofNat_le.2 hnearest)⟩

theorem whole_eq (n : Nat) (hlt : n < 2 ^ Format.single.precision) :
    (OfScientific.ofScientific (10 * n) true 1 : Single) =
      finite false (n * Format.single.one) (Format.representable_mul_one hlt (by decide)) :=
  literal_eq _

theorem share_isShare (byte : UInt8) : IsShare (Rgb.share byte) := by
  have hbyte : byte.toNat ≤ 255 := Nat.le_of_lt_succ byte.toNat_lt
  have hwhole : (255.0 : Single) = finite false (255 * Format.single.one)
      (Format.representable_mul_one (by decide) (by decide)) := whole_eq 255 (by decide)
  rw [Rgb.share, hwhole, ofNat_eq (Format.representable_mul_one (Nat.lt_of_le_of_lt hbyte
    (by decide)) (by decide)), div_finite (by decide +kernel)]
  refine isShare_round (Nat.mul_pos (by decide) Format.single.one_pos) ?_
  exact Nat.mul_le_mul_right _ (Nat.mul_le_mul_right _ hbyte)

theorem clamp_eq_nan_iff {x : Single} : Scalar.clamp x 0.0 1.0 = nan ↔ x = nan := by
  have hkept : Scalar.clamp (nan : Single) 0.0 1.0 = nan := by decide +kernel
  refine ⟨fun hclamp => Decidable.byContradiction fun hx => ?_, fun hx => hx ▸ hkept⟩
  have hfinite := (clamp_isShare hx).isFinite
  rw [hclamp] at hfinite
  cases hfinite

namespace Rgb

def InRange (color : Rgb) : Prop :=
  ∀ x ∈ color.components, IsShare x

theorem ofBytes_inRange (red green blue : UInt8) : (ofBytes red green blue).InRange := by
  simp only [InRange, ofBytes, components, List.forall_mem_cons]
  exact ⟨share_isShare red, share_isShare green, share_isShare blue, nofun⟩

theorem ofHex?_inRange {cs : List Char} {color : Rgb} (hcolor : ofHex? cs = some color) :
    color.InRange := by
  obtain ⟨digits, -, hcolor⟩ := Option.bind_eq_some_iff.1 hcolor
  split at hcolor
  · cases hcolor
    exact ofBytes_inRange _ _ _
  · cases hcolor
    exact ofBytes_inRange _ _ _
  · cases hcolor

/-- The word for what is not a number, or so many hundredths. -/
def IsNanWord (cs : List Char) : Prop :=
  cs ∈ Numeral.nanForms ∨ ∃ word ∈ Numeral.nanForms, cs = word ++ ['%']

theorem isNanWord_percent {cs : List Char} :
    IsNanWord (cs ++ ['%']) ↔ cs ∈ Numeral.nanForms := by
  have hends : ∀ word ∈ Numeral.nanForms, word.getLast? ≠ some '%' := by decide
  constructor
  · rintro (hmem | ⟨word, hmem, heq⟩)
    · exact absurd List.getLast?_concat (hends _ hmem)
    · rwa [List.append_cancel_right heq]
  · exact fun hmem => .inr ⟨cs, hmem, rfl⟩

theorem isNanWord_plain {cs : List Char} (hcs : ∀ rest, cs ≠ rest ++ ['%']) :
    IsNanWord cs ↔ cs ∈ Numeral.nanForms := by
  refine ⟨?_, .inl⟩
  rintro (hmem | ⟨word, -, heq⟩)
  · exact hmem
  · exact absurd heq (hcs word)

/-- A number that is read, divided by a whole number and moved into the range. -/
theorem clamped_spec {cs : List Char} (hsmall : ∀ c ∈ cs, c.toLower = c) {whole : Nat}
    (hwhole : whole ≠ 0) {h : Format.single.Representable whole} {x : Single}
    (hx : (Binary.read? cs).map (fun number => Scalar.clamp (number / finite false whole h) 0.0 1.0) =
      some x) :
    (x = nan ↔ cs ∈ Numeral.nanForms) ∧ (x = nan ∨ IsShare x) := by
  obtain ⟨number, hread, rfl⟩ := Option.map_eq_some_iff.1 hx
  obtain ⟨numeral, hnumeral, rfl⟩ := Option.map_eq_some_iff.1 hread
  have hnan : (ofNumeral numeral / finite false whole h : Single) = nan ↔
      cs ∈ Numeral.nanForms := by
    rw [div_eq_nan_iff hwhole, ofNumeral_eq_nan_iff, ← Numeral.read?_eq_nan_iff hsmall, hnumeral,
      Option.some.injEq]
  rw [clamp_eq_nan_iff, hnan]
  refine ⟨.rfl, ?_⟩
  by_cases hword : cs ∈ Numeral.nanForms
  · exact .inl hword
  · exact .inr (clamp_isShare fun heq => hword (hnan.1 heq))

theorem component?_percent (cs : List Char) : component? (cs ++ ['%']) =
    (Binary.read? cs).map fun number => Scalar.clamp (number / 100.0) 0.0 1.0 := by
  rw [component?, List.reverse_append]
  show ((Binary.read? cs.reverse.reverse).map (· / 100.0)).bind _ = _
  rw [List.reverse_reverse, Option.bind_map, Option.map_eq_bind]
  rfl

theorem component?_plain {cs : List Char} (hcs : ∀ rest, cs ≠ rest ++ ['%']) : component? cs =
    (Binary.read? cs).map fun number => Scalar.clamp (number / 255.0) 0.0 1.0 := by
  rw [component?]
  split
  next percent hreverse =>
    refine absurd ?_ (hcs percent.reverse)
    rw [← List.reverse_cons, ← hreverse, List.reverse_reverse]
  next =>
    show ((Binary.read? cs).map (· / 255.0)).bind _ = _
    rw [Option.bind_map, Option.map_eq_bind]
    rfl

theorem component?_spec {cs : List Char} (hsmall : ∀ c ∈ cs, c.toLower = c) {x : Single}
    (hx : component? cs = some x) : (x = nan ↔ IsNanWord cs) ∧ (x = nan ∨ IsShare x) := by
  by_cases hpercent : ∃ rest, cs = rest ++ ['%']
  · obtain ⟨rest, rfl⟩ := hpercent
    have hhundred : (100.0 : Single) = finite false (100 * Format.single.one)
        (Format.representable_mul_one (by decide) (by decide)) := whole_eq 100 (by decide)
    rw [component?_percent, hhundred] at hx
    rw [isNanWord_percent]
    exact clamped_spec (fun c hmem => hsmall c (List.mem_append_left _ hmem)) (by decide +kernel) hx
  · have hplain : ∀ rest, cs ≠ rest ++ ['%'] := fun rest heq => hpercent ⟨rest, heq⟩
    have hgreatest : (255.0 : Single) = finite false (255 * Format.single.one)
        (Format.representable_mul_one (by decide) (by decide)) := whole_eq 255 (by decide)
    rw [component?_plain hplain, hgreatest] at hx
    rw [isNanWord_plain hplain]
    exact clamped_spec hsmall (by decide +kernel) hx

theorem subset_trim (cs : List Char) : Text.trim cs ⊆ cs := by
  obtain ⟨left, right, hcs, -⟩ := Text.exists_trim cs
  intro c hmem
  rw [hcs]
  exact List.mem_append_left _ (List.mem_append_right _ hmem)

theorem ofTriple?_spec {body : List Char} (hsmall : ∀ c ∈ body, c.toLower = c) {color : Rgb}
    (hcolor : ofTriple? body = some color) :
    (nan ∈ color.components ↔ ∃ part ∈ body.splitOn ',', IsNanWord (Text.trim part)) ∧
      ∀ x ∈ color.components, x = nan ∨ IsShare x := by
  have hparts : ∀ part ∈ (body.splitOn ',').map Text.trim, ∀ c ∈ part, c.toLower = c := by
    intro part hpart c hc
    obtain ⟨piece, hpiece, rfl⟩ := List.mem_map.1 hpart
    exact hsmall c (Text.subset_of_mem_splitOn hpiece (subset_trim piece hc))
  have hexists : (∃ part ∈ body.splitOn ',', IsNanWord (Text.trim part)) ↔
      ∃ part ∈ (body.splitOn ',').map Text.trim, IsNanWord part := by
    constructor
    · rintro ⟨piece, hpiece, hword⟩
      exact ⟨_, List.mem_map_of_mem hpiece, hword⟩
    · rintro ⟨part, hpart, hword⟩
      obtain ⟨piece, hpiece, rfl⟩ := List.mem_map.1 hpart
      exact ⟨piece, hpiece, hword⟩
  rw [hexists]
  rw [ofTriple?] at hcolor
  split at hcolor
  next red green blue heq =>
    rw [heq] at hparts ⊢
    obtain ⟨x, hx, hcolor⟩ := Option.bind_eq_some_iff.1 hcolor
    obtain ⟨y, hy, hcolor⟩ := Option.bind_eq_some_iff.1 hcolor
    obtain ⟨z, hz, hcolor⟩ := Option.bind_eq_some_iff.1 hcolor
    cases hcolor
    simp only [List.forall_mem_cons] at hparts
    obtain ⟨hred, hgreen, hblue, -⟩ := hparts
    have hx := component?_spec hred hx
    have hy := component?_spec hgreen hy
    have hz := component?_spec hblue hz
    refine ⟨?_, List.forall_mem_cons.2 ⟨hx.2, List.forall_mem_cons.2 ⟨hy.2, ?_⟩⟩⟩
    · have hmem : nan ∈ components ⟨x, y, z⟩ ↔ x = nan ∨ y = nan ∨ z = nan := by
        simp [components, eq_comm]
      rw [hmem, hx.1, hy.1, hz.1]
      simp
    · exact List.forall_mem_singleton.2 hz.2
  next => cases hcolor

theorem tripleBody?_eq_some_iff {cs body : List Char} :
    tripleBody? cs = some body ↔ cs = "rgb(".toList ++ body ++ [')'] := by
  have hdrop (rest : List Char) : ("rgb(".toList ++ rest).drop 4 = rest := List.drop_left' rfl
  rw [tripleBody?]
  constructor
  · intro hbody
    split at hbody
    next hopens =>
      obtain ⟨rest, rfl⟩ := List.isPrefixOf_iff_prefix.1 hopens
      rw [hdrop] at hbody
      split at hbody
      next inner hreverse =>
        cases hbody
        rw [List.append_assoc, ← List.reverse_cons, ← hreverse, List.reverse_reverse]
      next => cases hbody
    next => cases hbody
  · rintro rfl
    rw [List.append_assoc, if_pos (List.isPrefixOf_iff_prefix.2 (List.prefix_append _ _)),
      hdrop, List.reverse_append]
    simp

/-- One of the numbers that a text gives between the parentheses of `rgb(...)` is the word for what is
not a number. -/
def GivesNan (text : String) : Prop :=
  ∃ parts : List (List Char),
    (Text.trim text.toList).map Char.toLower =
      "rgb(".toList ++ [','].intercalate parts ++ [')'] ∧
    (∀ part ∈ parts, ',' ∉ part) ∧ ∃ part ∈ parts, IsNanWord (Text.trim part)

theorem toLower_of_not_upper {c : Char} (hupper : ¬ (c.val ≥ 'A'.val ∧ c.val ≤ 'Z'.val)) :
    c.toLower = c :=
  dif_neg hupper

theorem toLower_toLower (c : Char) : c.toLower.toLower = c.toLower := by
  by_cases hupper : c.val ≥ 'A'.val ∧ c.val ≤ 'Z'.val
  · refine toLower_of_not_upper ?_
    have hval : c.toLower.val = c.val + 32 := congrArg Char.val (dif_pos hupper)
    rw [hval]
    rintro ⟨-, hhigh⟩
    have hlow : (65 : Nat) ≤ c.val.toNat := UInt32.le_iff_toNat_le.1 hupper.1
    have hbelow : c.val.toNat ≤ 90 := UInt32.le_iff_toNat_le.1 hupper.2
    have hmoved : (c.val + 32).toNat ≤ 90 := UInt32.le_iff_toNat_le.1 hhigh
    rw [UInt32.toNat_add] at hmoved
    have hsmall : (32 : UInt32).toNat = 32 := rfl
    omega
  · exact congrArg Char.toLower (toLower_of_not_upper hupper)

theorem givesNan_iff {text : String} :
    GivesNan text ↔ ∃ body, tripleBody? ((Text.trim text.toList).map Char.toLower) = some body ∧
      ∃ part ∈ body.splitOn ',', IsNanWord (Text.trim part) := by
  constructor
  · rintro ⟨parts, htext, hcommas, part, hpart, hword⟩
    refine ⟨_, tripleBody?_eq_some_iff.2 htext, part, ?_, hword⟩
    rwa [List.splitOn_intercalate ',' hcommas (List.ne_nil_of_mem hpart)]
  · rintro ⟨body, hbody, hword⟩
    refine ⟨body.splitOn ',', ?_, fun part hpart => Text.not_mem_of_mem_splitOn hpart, hword⟩
    rw [List.intercalate_splitOn]
    exact tripleBody?_eq_some_iff.1 hbody

/-- A number of a colour that is read lies from zero to one, or the text does not give a number. -/
theorem read?_spec {text : String} {color : Rgb} (hcolor : read? text = some color) :
    (nan ∈ color.components ↔ GivesNan text) ∧ ∀ x ∈ color.components, x = nan ∨ IsShare x := by
  have hinside (hrange : color.InRange) (hnone : ¬ GivesNan text) :
      (nan ∈ color.components ↔ GivesNan text) ∧ ∀ x ∈ color.components, x = nan ∨ IsShare x := by
    refine ⟨⟨fun hmem => ?_, fun hnan => absurd hnan hnone⟩, fun x hmem => .inr (hrange x hmem)⟩
    exact absurd (hrange nan hmem).isFinite (by decide)
  rw [givesNan_iff] at *
  rw [read?] at hcolor
  have hsmall : ∀ c ∈ (Text.trim text.toList).map Char.toLower, c.toLower = c := by
    intro c hmem
    obtain ⟨d, -, rfl⟩ := List.mem_map.1 hmem
    exact toLower_toLower d
  generalize (Text.trim text.toList).map Char.toLower = cs at *
  dsimp only at hcolor
  split at hcolor
  next digits =>
    refine hinside (ofHex?_inRange hcolor) ?_
    rintro ⟨body, hbody, -⟩
    cases hbody
  next hhex =>
    split at hcolor
    next body hbody =>
      have hcs := tripleBody?_eq_some_iff.1 hbody
      have hspec := ofTriple?_spec (fun c hmem => hsmall c (by simp [hcs, hmem])) hcolor
      refine ⟨hspec.1.trans ?_, hspec.2⟩
      simp only [hbody, Option.some.injEq, exists_eq_left']
    next hbody =>
      obtain ⟨⟨red, green, blue⟩, -, rfl⟩ := Option.map_eq_some_iff.1 hcolor
      refine hinside (ofBytes_inRange red green blue) ?_
      rintro ⟨body, hsome, -⟩
      rw [hbody] at hsome
      cases hsome

/-- The numbers of a colour that is read lie from zero to one, unless the text gives one that is not
a number. -/
theorem inRange_iff {text : String} {color : Rgb} (hcolor : read? text = some color) :
    color.InRange ↔ ¬ GivesNan text := by
  obtain ⟨hnan, hshares⟩ := read?_spec hcolor
  rw [← hnan]
  constructor
  · intro hrange hmem
    exact absurd (hrange nan hmem).isFinite (by decide)
  · intro hnone x hmem
    rcases hshares x hmem with rfl | hshare
    · exact absurd hmem hnone
    · exact hshare

end Rgb

end Color

end Overprint
