import Mathlib.Algebra.Order.Field.Power
import Mathlib.Algebra.Order.Field.Rat
import Mathlib.Data.Prod.Lex
import Mathlib.Order.Compare
import Mathlib.Tactic.Positivity
import TableAccess.Store.Read

/-!
# The order of cells

Cells of all kinds stand in one order: each cell has a place, and cells are compared as their places
are. So any two cells are in order one way or the other, and what is put in order stays in it.
-/

namespace TableAccess

/-! ## Numbers -/

namespace Number

/-- Scaled numbers are compared by value. -/
theorem compareScaled_eq (s e t f : Int) :
    compareScaled s e t f = compare ((s : ℚ) * 2 ^ e) ((t : ℚ) * 2 ^ f) := by
  have scaled (n k : Int) (low : min e f ≤ k) :
      (n : ℚ) * 2 ^ k = ((n * Nat.pow 2 (k - min e f).toNat : Int) : ℚ) * 2 ^ min e f := by
    have parts : k = ((k - min e f).toNat : Int) + min e f := by omega
    conv_lhs => rw [parts, zpow_add₀ two_ne_zero, zpow_natCast]
    simp [mul_assoc]
  have positive : (0 : ℚ) < 2 ^ min e f := by positivity
  rw [scaled s e (min_le_left e f), scaled t f (min_le_right e f), ← cmp_eq_compare,
    cmp_mul_pos_right positive, Int.cast_strictMono.cmp_map_eq, cmp_eq_compare]
  rfl

/-- The place of a number among all numbers. -/
def Unpacked.place : Unpacked → Nat ×ₗ ℚ
  | nan => toLex (0, 0)
  | infinite true => toLex (1, 0)
  | finite negative significand exponent => toLex (2, signedBy negative significand * 2 ^ exponent)
  | infinite false => toLex (3, 0)

theorem Unpacked.order_eq (x y : Unpacked) : x.order y = compare x.place y.place := by
  rw [Prod.Lex.compare_def]
  rcases x with _ | (_ | _) | ⟨m, s, e⟩ <;> rcases y with _ | (_ | _) | ⟨n, t, f⟩
  case finite.finite => exact compareScaled_eq _ e _ f
  all_goals rfl

end Number

namespace Cell

theorem compareBytes_eq (first second : List UInt8) :
    compareBytes first second = compare first second := by
  induction first generalizing second with
  | nil => cases second <;> rfl
  | cons a rest ih =>
      cases second with
      | nil => rfl
      | cons b later =>
          rw [compareBytes, ih, List.compare_cons_cons]

/-- The place of a cell among all cells: null comes before the numbers, and these before the texts
and the bytes. -/
def place : Cell → Nat ×ₗ (Nat ×ₗ ℚ) ×ₗ String ×ₗ List UInt8
  | null => toLex (0, toLex (toLex (0, 0), toLex ("", [])))
  | integer n => toLex (1, toLex ((Number.Unpacked.ofInt n.toInt).place, toLex ("", [])))
  | real x => toLex (1, toLex (x.unpack.place, toLex ("", [])))
  | text s => toLex (2, toLex (toLex (0, 0), toLex (s, [])))
  | blob bs => toLex (3, toLex (toLex (0, 0), toLex ("", bs)))

theorem compare_toLex {α β : Type} [Ord α] [Ord β] (a c : α) (b d : β) :
    compare (toLex (a, b)) (toLex (c, d)) = (compare a c).then (compare b d) := by
  rw [Prod.Lex.compare_def]
  rfl

theorem order_eq (a b : Cell) : a.order b = compare a.place b.place := by
  cases a <;> cases b <;> simp only [place, compare_toLex]
  case text.text => simp [order]
  case blob.blob => simp [order, compareBytes_eq]
  case integer.integer | integer.real | real.integer | real.real =>
    simp [order, number?, Number.Unpacked.order_eq]
  all_goals rfl

instance : Std.TransCmp order := by
  have same : order = compareOn place := funext fun a => funext fun b => order_eq a b
  rw [same]
  infer_instance

end Cell

/-! ## Rows of cells -/

theorem sameCells_iff {first second : List Cell} : sameCells first second = true ↔
    List.Forall₂ (fun a b : Cell => a.order b = .eq) first second := by
  simp [sameCells, Cell.same, List.forall₂_iff_zip]

theorem sameCells_refl (cells : List Cell) : sameCells cells cells = true :=
  sameCells_iff.mpr (List.forall₂_same.mpr fun _ _ => Std.ReflCmp.compare_self)

theorem sameCells_comm {first second : List Cell} :
    sameCells first second = sameCells second first := by
  have symm {first second : List Cell} (same : sameCells first second = true) :
      sameCells second first = true :=
    sameCells_iff.mpr ((sameCells_iff.mp same).flip.imp fun _ _ => Std.OrientedCmp.eq_symm)
  exact Bool.eq_iff_iff.mpr ⟨symm, symm⟩

theorem sameCells_trans {first second third : List Cell} (one : sameCells first second = true)
    (two : sameCells second third = true) : sameCells first third = true := by
  rw [sameCells_iff] at *
  induction one generalizing third with
  | nil => exact two
  | cons first _ ih =>
      cases two with
      | cons second rest => exact .cons (Std.TransCmp.eq_trans first second) (ih rest)

end TableAccess
