import Overprint.Text.CodePoint

/-!
# White space

What counts as blank around numbers, colours and page tokens, and cutting it off.
-/

namespace Overprint.Text

/-- The characters with the Unicode property `White_Space`. -/
def blank : CodeSet := ⟨[
  (0x9, 0xd), (0x20, 0x20), (0x85, 0x85), (0xa0, 0xa0), (0x1680, 0x1680), (0x2000, 0x200a),
  (0x2028, 0x2029), (0x202f, 0x202f), (0x205f, 0x205f), (0x3000, 0x3000)]⟩

def isBlank (c : Char) : Bool :=
  blank.contains c

def trimStart (cs : List Char) : List Char :=
  cs.dropWhile isBlank

def trim (cs : List Char) : List Char :=
  ((trimStart cs).reverse.dropWhile isBlank).reverse

theorem dropWhile_isBlank_eq_nil {cs : List Char} (hblank : ∀ c ∈ cs, isBlank c) :
    cs.dropWhile isBlank = [] := by
  rw [← List.append_nil cs, List.dropWhile_append_of_pos hblank]
  rfl

theorem dropWhile_isBlank_eq_self {cs : List Char} (hkept : ∀ c ∈ cs, ¬ isBlank c) :
    cs.dropWhile isBlank = cs := by
  cases cs with
  | nil => rfl
  | cons c rest => exact List.dropWhile_cons_of_neg (hkept c List.mem_cons_self)

theorem trim_append {left core right : List Char} (hleft : ∀ c ∈ left, isBlank c)
    (hcore : ∀ c ∈ core, ¬ isBlank c) (hright : ∀ c ∈ right, isBlank c) :
    trim (left ++ core ++ right) = core := by
  rw [trim, trimStart, List.append_assoc, List.dropWhile_append_of_pos hleft]
  cases core with
  | nil =>
    rw [List.nil_append, dropWhile_isBlank_eq_nil hright]
    rfl
  | cons c rest =>
    have hcoreReverse : ∀ d ∈ (c :: rest).reverse, ¬ isBlank d := fun d hmem =>
      hcore d (List.mem_reverse.1 hmem)
    have hrightReverse : ∀ d ∈ right.reverse, isBlank d := fun d hmem =>
      hright d (List.mem_reverse.1 hmem)
    rw [List.cons_append, List.dropWhile_cons_of_neg (hcore c List.mem_cons_self),
      ← List.cons_append, List.reverse_append, List.dropWhile_append_of_pos hrightReverse,
      dropWhile_isBlank_eq_self hcoreReverse, List.reverse_reverse]

theorem exists_trim (cs : List Char) : ∃ left right, cs = left ++ trim cs ++ right ∧
    (∀ c ∈ left, isBlank c) ∧ ∀ c ∈ right, isBlank c := by
  refine ⟨cs.takeWhile isBlank, ((trimStart cs).reverse.takeWhile isBlank).reverse, ?_,
    fun c hmem => ?_, fun c hmem => ?_⟩
  · have hend : trim cs ++ ((trimStart cs).reverse.takeWhile isBlank).reverse = trimStart cs := by
      rw [trim, ← List.reverse_append, List.takeWhile_append_dropWhile, List.reverse_reverse]
    rw [List.append_assoc, hend, trimStart, List.takeWhile_append_dropWhile]
  · exact List.all_eq_true.1 List.all_takeWhile c hmem
  · exact List.all_eq_true.1 List.all_takeWhile c (List.mem_reverse.1 hmem)

theorem trim_eq_nil_iff {cs : List Char} : trim cs = [] ↔ ∀ c ∈ cs, isBlank c := by
  constructor
  · intro hnil c hmem
    obtain ⟨left, right, hcs, hleft, hright⟩ := exists_trim cs
    rw [hnil, List.append_nil] at hcs
    rw [hcs] at hmem
    exact (List.mem_append.1 hmem).elim (hleft c) (hright c)
  · intro hblank
    rw [trim, trimStart, dropWhile_isBlank_eq_nil hblank]
    rfl

end Overprint.Text
