import ExtensionLint.Proofs.VersionParts
import Mathlib.Data.String.Basic
import Mathlib.Order.Compare

/-!
The order of versions. Parts compare field by field, where a text counts as empty or not before it
counts as a text, so their order is a lexicographic order of total orders. Versions compare as their
lists of parts do once both are continued with zero parts to one length. So the order is total and
transitive on all texts, and two versions are equal exactly when these lists are the same.
-/

namespace ExtensionLint.Version

/-- Among texts the empty one is the last. -/
theorem compareText_eq (a b : String) :
    compareText a b = (Ord.compare a.isEmpty b.isEmpty).then (Ord.compare a b) := by
  rw [compareText]
  cases ha : a.isEmpty <;> cases hb : b.isEmpty
  · rfl
  · rfl
  · rfl
  · obtain rfl := String.isEmpty_iff.mp ha
    obtain rfl := String.isEmpty_iff.mp hb
    rfl

namespace Part

/-- Parts compare by their fields in turn. -/
theorem compare_eq_compareLex :
    compare = compareLex (compareOn number)
      (compareLex (compareOn fun part => part.text.isEmpty) (compareLex (compareOn text)
        (compareLex (compareOn second) (compareLex (compareOn fun part => part.rest.isEmpty)
          (compareOn rest))))) := by
  funext a b
  simp only [compare, compareText_eq, compareLex, compareOn, Ordering.then_assoc]

instance : Std.TransCmp compare := by
  rw [compare_eq_compareLex]
  infer_instance

instance : Std.LawfulEqCmp compare where
  eq_of_compare {a b} h := by
    simp only [compare, compareText_eq, Ordering.then_eq_eq, Std.LawfulEqOrd.compare_eq_iff_eq] at h
    obtain ⟨⟨⟨hnumber, -, htext⟩, hsecond⟩, -, hrest⟩ := h
    cases a
    cases b
    simp_all

end Part

section Padding

variable {as bs : List Part} {a : Part} {n : Nat}

theorem rightpad_cons : (a :: as).rightpad (n + 1) .zero = a :: as.rightpad n Part.zero := by
  simp [List.rightpad]

theorem rightpad_nil : List.rightpad (n + 1) Part.zero [] = .zero :: List.rightpad n Part.zero [] := by
  simp [List.rightpad, List.replicate_succ]

/-- Lists of parts compare as they do when both are continued with zero parts to one length. -/
theorem compareParts_eq_compareLex (ha : as.length ≤ n) (hb : bs.length ≤ n) :
    compareParts as bs =
      List.compareLex Part.compare (as.rightpad n .zero) (bs.rightpad n .zero) := by
  fun_induction compareParts as bs generalizing n with
  | case1 => exact Std.ReflCmp.compare_self.symm
  | case2 a as ih =>
      obtain ⟨n, rfl⟩ := Nat.exists_eq_add_one_of_ne_zero (Nat.ne_zero_of_lt ha)
      rw [rightpad_cons, rightpad_nil, List.compareLex_cons_cons,
        ih (Nat.le_of_succ_le_succ ha) n.zero_le]
  | case3 b bs ih =>
      obtain ⟨n, rfl⟩ := Nat.exists_eq_add_one_of_ne_zero (Nat.ne_zero_of_lt hb)
      rw [rightpad_cons, rightpad_nil, List.compareLex_cons_cons,
        ih n.zero_le (Nat.le_of_succ_le_succ hb)]
  | case4 a as b bs ih =>
      obtain ⟨n, rfl⟩ := Nat.exists_eq_add_one_of_ne_zero (Nat.ne_zero_of_lt ha)
      rw [rightpad_cons, rightpad_cons, List.compareLex_cons_cons,
        ih (Nat.le_of_succ_le_succ ha) (Nat.le_of_succ_le_succ hb)]

end Padding

/-- The parts of a version, continued with zero parts to a length. -/
def partsTo (n : Nat) (version : String) : List Part := (parts version).rightpad n .zero

/-- Holds of versions that are read as the same parts once the shorter list is continued with zero
parts. -/
def SameParts (a b : String) : Prop :=
  ∃ as bs, Reads a as ∧ Reads b bs ∧
    as.rightpad (max as.length bs.length) ⟨0, "", 0, ""⟩ =
      bs.rightpad (max as.length bs.length) ⟨0, "", 0, ""⟩

theorem sameParts_iff {a b : String} :
    SameParts a b ↔
      let n := max (parts a).length (parts b).length
      partsTo n a = partsTo n b := by
  constructor
  · rintro ⟨as, bs, ha, hb, hsame⟩
    obtain rfl := reads_iff.mp ha
    obtain rfl := reads_iff.mp hb
    exact hsame
  · exact fun hsame => ⟨_, _, reads_iff.mpr rfl, reads_iff.mpr rfl, hsame⟩

instance (a b : String) : Decidable (SameParts a b) :=
  decidable_of_iff _ sameParts_iff.symm

theorem compare_eq_compareLex {a b : String} {n : Nat} (ha : (parts a).length ≤ n)
    (hb : (parts b).length ≤ n) :
    compare a b = List.compareLex Part.compare (partsTo n a) (partsTo n b) :=
  compareParts_eq_compareLex ha hb

instance : Std.TransCmp compare where
  eq_swap {a b} := by
    rw [compare_eq_compareLex (le_max_left _ _) (le_max_right _ _),
      compare_eq_compareLex (le_max_right _ _) (le_max_left _ _)]
    exact Std.OrientedCmp.eq_swap
  isLE_trans {a b c} hab hbc := by
    -- the three versions are compared at one length
    let n := max (parts a).length (max (parts b).length (parts c).length)
    have ha : (parts a).length ≤ n := by omega
    have hb : (parts b).length ≤ n := by omega
    have hc : (parts c).length ≤ n := by omega
    rw [compare_eq_compareLex ha hb] at hab
    rw [compare_eq_compareLex hb hc] at hbc
    rw [compare_eq_compareLex ha hc]
    exact Std.TransCmp.isLE_trans hab hbc

theorem compare_eq_eq_iff {a b : String} : compare a b = .eq ↔ SameParts a b := by
  rw [compare_eq_compareLex (le_max_left _ _) (le_max_right _ _), sameParts_iff]
  exact Std.LawfulEqCmp.compare_eq_iff_eq

example : SameParts "78" " 78.0.0" := by decide

/-- Versions are in a total preorder: turning a comparison round reverses it, what is not greater
than one not greater than a third is not greater than the third, and equal versions are those with
the same parts up to zero parts at the end, which compare alike with every version. The parts of a
version are the only ones that it is read as. -/
theorem compare_totalPreorder (a b c : String) :
    compare a b = (compare b a).swap ∧
    (compare a b ≠ .gt → compare b c ≠ .gt → compare a c ≠ .gt) ∧
    (compare a b = .eq ↔ SameParts a b) ∧
    (compare a b = .eq → compare a c = compare b c ∧ compare c a = compare c b) ∧
    ∀ ps, Reads a ps ↔ ps = parts a := by
  refine ⟨Std.OrientedCmp.eq_swap, fun hab hbc => ?_, compare_eq_eq_iff, fun hab => ?_,
    fun ps => reads_iff⟩
  · have hle : (compare a c).isLE :=
      Std.TransCmp.isLE_trans (Ordering.isLE_iff_ne_gt.mpr hab) (Ordering.isLE_iff_ne_gt.mpr hbc)
    exact Ordering.isLE_iff_ne_gt.mp hle
  · exact ⟨Std.TransCmp.congr_left hab, Std.TransCmp.congr_right hab⟩

/-- A prerelease comes before its release, which is written in two ways, and the release before all
that begins with it. -/
theorem compare_totalPreorder_prerelease :
    Reads "1.0b2-x" [⟨1, "", 0, ""⟩, ⟨0, "b", 2, "-x"⟩] ∧
      compare "1.0b2-x" "1.0" = .lt ∧ compare "1.0" "1.0b2-x" = .gt ∧
      compare "1.0" "1.0.*" = .lt ∧ compare "1.0b2-x" "1.0.*" ≠ .gt ∧
      Reads " 1" [⟨1, "", 0, ""⟩] ∧ compare " 1" "1.0" = .eq ∧ SameParts " 1" "1.0" ∧
      ∀ c, compare " 1" c = compare "1.0" c := by
  have hbelow : compare "1.0b2-x" "1.0" = .lt := by
    rw [compare_eq_compareLex (n := 3) (by decide) (by decide)]
    decide
  have habove : compare "1.0" "1.0.*" = .lt := by
    rw [compare_eq_compareLex (n := 3) (by decide) (by decide)]
    decide
  have hsame : compare " 1" "1.0" = .eq := by
    rw [compare_eq_compareLex (n := 3) (by decide) (by decide)]
    decide
  obtain ⟨-, htrans, -, -, hreads⟩ := compare_totalPreorder "1.0b2-x" "1.0" "1.0.*"
  obtain ⟨hswap, -, -, -, -⟩ := compare_totalPreorder "1.0" "1.0b2-x" "1.0.*"
  obtain ⟨-, -, hparts, -, hblank⟩ := compare_totalPreorder " 1" "1.0" "1.0"
  have hbetween : compare "1.0b2-x" "1.0.*" ≠ .gt :=
    htrans (hbelow ▸ by decide) (habove ▸ by decide)
  exact ⟨(hreads _).mpr (by decide), hbelow, hswap.trans (hbelow ▸ rfl), habove, hbetween,
    (hblank _).mpr (by decide), hsame, hparts.mp hsame,
    fun c => ((compare_totalPreorder " 1" "1.0" c).2.2.2.1 hsame).1⟩

end ExtensionLint.Version
