import Mathlib.Data.Int.Basic
import Mathlib.Tactic.Ring

/-!
# Python bytes

`int.from_bytes` in big-endian order, on the list of the bytes.
-/

namespace ProdkitStorage.Python

/-- `int.from_bytes(value, "big")`. -/
def natFromBytes : List UInt8 → Nat
  | [] => 0
  | b :: bytes => b.toNat * 256 ^ bytes.length + natFromBytes bytes

/-- `int.from_bytes(value, "big", signed=True)`. -/
def intFromBytes (bytes : List UInt8) : Int :=
  if 2 * natFromBytes bytes < 256 ^ bytes.length then natFromBytes bytes
  else natFromBytes bytes - (256 ^ bytes.length : Nat)

theorem natFromBytes_lt (bytes : List UInt8) : natFromBytes bytes < 256 ^ bytes.length := by
  induction bytes with
  | nil => simp [natFromBytes]
  | cons b bytes ih =>
      have hb : b.toNat + 1 ≤ 256 := UInt8.toNat_lt b
      calc b.toNat * 256 ^ bytes.length + natFromBytes bytes
          < b.toNat * 256 ^ bytes.length + 256 ^ bytes.length := Nat.add_lt_add_left ih _
        _ = (b.toNat + 1) * 256 ^ bytes.length := by ring
        _ ≤ 256 * 256 ^ bytes.length := Nat.mul_le_mul_right _ hb
        _ = 256 ^ (b :: bytes).length := by rw [List.length_cons, pow_succ, Nat.mul_comm]

/-- Bytes of one length are told apart by their number. -/
theorem natFromBytes_inj {bytes others : List UInt8} (hlength : bytes.length = others.length)
    (h : natFromBytes bytes = natFromBytes others) : bytes = others := by
  induction bytes generalizing others with
  | nil => exact (List.length_eq_zero_iff.mp hlength.symm).symm
  | cons b bytes ih =>
      cases others with
      | nil => cases hlength
      | cons b' others =>
          have hrest : bytes.length = others.length := Nat.succ.inj hlength
          rw [natFromBytes, natFromBytes, hrest] at h
          have hlt := natFromBytes_lt bytes
          have hlt' := natFromBytes_lt others
          rw [hrest] at hlt
          have hpos : 0 < 256 ^ others.length := Nat.pow_pos (by omega)
          have hhead : b.toNat = b'.toNat := by
            have hquotient := congrArg (· / 256 ^ others.length) h
            simpa [Nat.mul_add_div, Nat.mul_comm, Nat.div_eq_of_lt, hlt, hlt', hpos] using hquotient
          rw [hhead] at h
          rw [UInt8.toNat_inj.mp hhead, ih hrest (Nat.add_left_cancel h)]

theorem intFromBytes_inj {bytes others : List UInt8} (hlength : bytes.length = others.length)
    (h : intFromBytes bytes = intFromBytes others) : bytes = others := by
  refine natFromBytes_inj hlength ?_
  have hlt := natFromBytes_lt bytes
  have hlt' := natFromBytes_lt others
  unfold intFromBytes at h
  rw [hlength] at h hlt
  generalize 256 ^ others.length = size at *
  split at h <;> split at h <;> omega

/-- A signed integer of so many bytes. -/
theorem intFromBytes_range (bytes : List UInt8) :
    -(256 ^ bytes.length : Nat) ≤ 2 * intFromBytes bytes ∧
      2 * intFromBytes bytes < (256 ^ bytes.length : Nat) := by
  have hlt := natFromBytes_lt bytes
  unfold intFromBytes
  generalize 256 ^ bytes.length = size at *
  split <;> omega

end ProdkitStorage.Python
