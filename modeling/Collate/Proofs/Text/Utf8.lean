import Collate.Text.Utf8
import Mathlib.Algebra.Group.Nat.Defs
import Mathlib.Data.Char

/-
  The order of texts and the order of their UTF-8 forms.  The
  octets of a character are the digits of its number to the
  base 64, with a greater mark on the first octet the more of
  them there are.  So texts in ascending order have UTF-8 forms
  in ascending order.

  Key definitions include:
    * `Utf8.layers`

  Main declarations:
    * `Utf8.utf8EncodeChar_eq_layers`
    * `Utf8.utf8EncodeChar_lt`
    * `Utf8.encode_lt_of_compare`
-/

------------------------------------------------------------
-- Octets of a Character
------------------------------------------------------------

namespace Collate

namespace Utf8

/-
  The digits of a number to the base 64 as octets: a marked
  octet for what is left of it after `k` digits, and these.
-/
def layers
    (mark : Nat) : Nat → Nat → Octets
  | 0, v => [UInt8.ofNat (v + mark)]
  | k + 1, v =>
      layers mark k (v / 64) ++ [UInt8.ofNat (v % 64 + 0x80)]

/- How many octets follow the first octet of a character. -/
def extra
    (v : Nat) : Nat :=
  if v ≤ 0x7F then 0
  else if v ≤ 0x7FF then 1
  else if v ≤ 0xFFFF then 2
  else 3

/- The mark on the first octet if `k` octets follow it. -/
def leadMark : Nat → Nat
  | 0 => 0
  | 1 => 0xC0
  | 2 => 0xE0
  | _ => 0xF0

theorem val_lt
    (c : Char) :
    c.val.toNat < 0x110000 := by
  have hValid := c.valid
  unfold UInt32.isValidChar Nat.isValidChar at hValid
  omega

theorem utf8EncodeChar_eq_layers
    (c : Char) :
    String.utf8EncodeChar c =
      layers (leadMark (extra c.val.toNat))
        (extra c.val.toNat) c.val.toNat := by
  have hBound := val_lt c
  unfold String.utf8EncodeChar extra
  generalize c.val.toNat = v at hBound ⊢
  split_ifs <;>
    simp only [layers, leadMark, List.cons_append,
      List.nil_append, Nat.div_div_eq_div_mul,
      Nat.add_zero] <;>
    grind

------------------------------------------------------------
-- Order
------------------------------------------------------------

theorem ofNat_lt
    {a b : Nat}
    (hLess : a < b)
    (hBound : b < 256) :
    UInt8.ofNat a < UInt8.ofNat b := by
  rw [UInt8.lt_iff_toNat_lt, UInt8.toNat_ofNat',
    UInt8.toNat_ofNat']
  omega

/- Of numbers with as many digits, the first that differ decide. -/
theorem layers_lt
    {mark k v w : Nat}
    (hLess : v < w)
    (hBound : w < (256 - mark) * 64 ^ k)
    (after others : Octets) :
    layers mark k v ++ after < layers mark k w ++ others := by
  induction k generalizing v w after others with
  | zero =>
      apply List.cons_lt_cons_iff.mpr
      exact .inl (ofNat_lt (by omega) (by omega))
  | succ k ih =>
      simp only [layers, List.append_assoc, List.cons_append,
        List.nil_append]
      rcases Nat.lt_or_ge (v / 64) (w / 64) with hHigh | hHigh
      · apply ih hHigh
        apply Nat.div_lt_of_lt_mul
        rw [Nat.pow_succ'] at hBound
        rw [Nat.mul_left_comm]
        exact hBound
      · have hSame : v / 64 = w / 64 := by omega
        rw [hSame]
        apply List.append_left_lt
        apply List.cons_lt_cons_iff.mpr
        exact .inl (ofNat_lt (by omega) (by omega))

theorem layers_eq_cons
    (mark k v : Nat) :
    ∃ rest,
      layers mark k v =
        UInt8.ofNat (v / 64 ^ k + mark) :: rest := by
  induction k generalizing v with
  | zero => exact ⟨[], by simp [layers]⟩
  | succ k ih =>
      rcases ih (v / 64) with ⟨rest, hRest⟩
      refine ⟨rest ++ [UInt8.ofNat (v % 64 + 0x80)], ?_⟩
      rw [layers, hRest, Nat.div_div_eq_div_mul,
        ← Nat.pow_succ']
      rfl

theorem lt_of_extra
    {v : Nat}
    (hValid : v < 0x110000) :
    v < (256 - leadMark (extra v)) * 64 ^ extra v := by
  unfold extra
  split_ifs <;> simp only [leadMark] <;> omega

/- More octets come with a greater first octet. -/
theorem lead_lt
    {v w : Nat}
    (hLess : v < w)
    (hExtra : extra v ≠ extra w) :
    v / 64 ^ extra v + leadMark (extra v) <
      w / 64 ^ extra w + leadMark (extra w) := by
  unfold extra at *
  split_ifs at * <;> simp only [leadMark] at * <;> omega

/- Characters in order have octets in order. -/
theorem utf8EncodeChar_lt
    {c d : Char}
    (hLess : c < d)
    (after others : Octets) :
    String.utf8EncodeChar c ++ after <
      String.utf8EncodeChar d ++ others := by
  have hNumbers : c.val.toNat < d.val.toNat := hLess
  have hBound := lt_of_extra (val_lt d)
  rw [utf8EncodeChar_eq_layers, utf8EncodeChar_eq_layers]
  generalize c.val.toNat = v at hNumbers ⊢
  generalize d.val.toNat = w at hNumbers hBound ⊢
  by_cases hExtra : extra v = extra w
  · rw [hExtra]
    exact layers_lt hNumbers hBound after others
  · rcases layers_eq_cons (leadMark (extra v)) (extra v) v with
      ⟨rest, hV⟩
    rcases layers_eq_cons (leadMark (extra w)) (extra w) w with
      ⟨rest', hW⟩
    have hLead : w / 64 ^ extra w + leadMark (extra w) < 256 := by
      apply Nat.add_lt_of_lt_sub
      apply Nat.div_lt_of_lt_mul
      rw [Nat.mul_comm]
      exact hBound
    rw [hV, hW]
    apply List.cons_lt_cons_iff.mpr
    exact .inl (ofNat_lt (lead_lt hNumbers hExtra) hLead)

/- Texts in ascending order have octets in ascending order. -/
theorem encode_lt_of_compare
    {a b : Text}
    (hLess : compare a b = .lt) :
    encode a < encode b := by
  induction a generalizing b with
  | nil =>
      cases b with
      | nil => cases hLess
      | cons d b =>
          rcases layers_eq_cons
              (leadMark (extra d.val.toNat))
              (extra d.val.toNat) d.val.toNat with
            ⟨rest, hFirst⟩
          simp only [encode, List.flatMap_nil,
            List.flatMap_cons, utf8EncodeChar_eq_layers,
            hFirst]
          exact List.nil_lt_cons _ _
  | cons c a ih =>
      cases b with
      | nil => cases hLess
      | cons d b =>
          rw [List.compare_cons_cons, Ordering.then_eq_lt]
            at hLess
          simp only [encode, List.flatMap_cons]
          rcases hLess with hFirst | ⟨hSame, hRest⟩
          · rw [compare_lt_iff_lt] at hFirst
            exact utf8EncodeChar_lt hFirst _ _
          · rw [compare_eq_iff_eq] at hSame
            rw [hSame]
            exact List.append_left_lt (ih hRest)

end Utf8

end Collate
