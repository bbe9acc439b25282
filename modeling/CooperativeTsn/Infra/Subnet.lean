import Mathlib.Algebra.Group.Nat.Defs
import Mathlib.Data.List.Nodup

/-!
# Subnets over machine words

An address is a word, and a contiguous mask cuts it in two. The low `h` bits number the hosts of a
subnet, the others name the subnet. The first number is the address of the network, the last one
its directed broadcast address. Addresses are given out as a base plus a number, and the addition
wraps around.

* `toNat_and_contiguousMask` — the mask rounds down
* `toNat_broadcastAddress` — the directed broadcast address is the last of the subnet
* `add_eq_network_iff`, `add_eq_broadcast_iff` — the two numbers that give an unusable address
* `usable_map_add_iff` — when all the addresses given out are usable
-/

namespace Infra.Subnet

variable {w h : Nat}

/-- Ones, followed by `h` zeros. -/
def contiguousMask (w h : Nat) : BitVec w :=
  BitVec.allOnes w <<< h

/-- The address of the network. -/
def networkAddress (base mask : BitVec w) : BitVec w :=
  base &&& mask

/-- The directed broadcast address. -/
def broadcastAddress (base mask : BitVec w) : BitVec w :=
  base ||| ~~~mask

/-- Whether two addresses are of one subnet, as it is compared without two masked copies. -/
def SameSubnet (a b mask : BitVec w) : Prop :=
  (a ^^^ b) &&& mask = 0

instance (a b mask : BitVec w) : Decidable (SameSubnet a b mask) :=
  inferInstanceAs (Decidable (_ = _))

theorem sameSubnet_iff {a b mask : BitVec w} :
    SameSubnet a b mask ↔ networkAddress a mask = networkAddress b mask := by
  have hdistrib : (a ^^^ b) &&& mask = (a &&& mask) ^^^ (b &&& mask) := by
    apply BitVec.eq_of_getLsbD_eq
    intro i _
    simp only [BitVec.getLsbD_and, BitVec.getLsbD_xor, Bool.and_xor_distrib_right]
  rw [SameSubnet, networkAddress, networkAddress, hdistrib]
  exact BitVec.xor_eq_zero_iff

/-! ## The two parts of an address as numbers -/

theorem getLsbD_contiguousMask {i : Nat} :
    (contiguousMask w h).getLsbD i = (decide (i < w) && decide (h ≤ i)) := by
  rw [contiguousMask, BitVec.getLsbD_shiftLeft, BitVec.getLsbD_allOnes]
  by_cases hi : i < w
  · by_cases hh : i < h
    · simp [hh, Nat.not_le.mpr hh]
    · simp [hi, hh, Nat.not_lt.mp hh, Nat.lt_of_le_of_lt (Nat.sub_le i h) hi]
  · simp [hi]

theorem and_contiguousMask {a : BitVec w} : a &&& contiguousMask w h = a >>> h <<< h := by
  apply BitVec.eq_of_getLsbD_eq
  intro i hi
  rw [BitVec.getLsbD_and, getLsbD_contiguousMask, BitVec.getLsbD_shiftLeft,
    BitVec.getLsbD_ushiftRight]
  by_cases hh : i < h
  · simp [hh, Nat.not_le.mpr hh]
  · have hle : h ≤ i := Nat.not_lt.mp hh
    simp [hi, hh, hle, Nat.add_sub_cancel' hle]

/-- The mask rounds an address down to a multiple of the number of hosts. -/
theorem toNat_and_contiguousMask {a : BitVec w} :
    (a &&& contiguousMask w h).toNat = a.toNat - a.toNat % 2 ^ h := by
  have hround : a.toNat / 2 ^ h * 2 ^ h = a.toNat - a.toNat % 2 ^ h := by
    have := Nat.div_add_mod' a.toNat (2 ^ h)
    omega
  rw [and_contiguousMask, BitVec.toNat_shiftLeft, BitVec.toNat_ushiftRight,
    Nat.shiftRight_eq_div_pow, Nat.shiftLeft_eq, hround]
  exact Nat.mod_eq_of_lt (Nat.lt_of_le_of_lt (Nat.sub_le ..) a.isLt)

/-- What is left of an address above its host number, and the room for the hosts above that. -/
theorem sub_mod_add_le {a : BitVec w} (hh : h ≤ w) :
    a.toNat - a.toNat % 2 ^ h + 2 ^ h ≤ 2 ^ w := by
  obtain ⟨k, hk⟩ := Nat.exists_eq_add_of_le hh
  have hround := Nat.div_add_mod' a.toNat (2 ^ h)
  have hlt : a.toNat / 2 ^ h < 2 ^ k := by
    rw [Nat.div_lt_iff_lt_mul (Nat.two_pow_pos h), ← Nat.pow_add, Nat.add_comm, ← hk]
    exact a.isLt
  calc a.toNat - a.toNat % 2 ^ h + 2 ^ h
      = (a.toNat / 2 ^ h + 1) * 2 ^ h := by rw [Nat.add_mul]; omega
    _ ≤ 2 ^ k * 2 ^ h := Nat.mul_le_mul_right _ hlt
    _ = 2 ^ w := by rw [← Nat.pow_add, Nat.add_comm, ← hk]

/-- The directed broadcast address is the last address of the subnet. -/
theorem toNat_broadcastAddress {a : BitVec w} (hh : h ≤ w) :
    (broadcastAddress a (contiguousMask w h)).toNat =
      a.toNat - a.toNat % 2 ^ h + (2 ^ h - 1) := by
  have hcompl : broadcastAddress a (contiguousMask w h) =
      ~~~(~~~a &&& contiguousMask w h) := by
    rw [broadcastAddress, BitVec.not_and, BitVec.not_not]
  -- the complement counts down in every subnet, from its last address to its first
  have hmod : (2 ^ w - 1 - a.toNat) % 2 ^ h = 2 ^ h - 1 - a.toNat % 2 ^ h := by
    have hroom := sub_mod_add_le (a := a) hh
    have hpos := Nat.mod_lt a.toNat (Nat.two_pow_pos h)
    obtain ⟨k, hk⟩ : 2 ^ h ∣ 2 ^ w := Nat.pow_dvd_pow 2 hh
    have hround := Nat.div_add_mod' a.toNat (2 ^ h)
    have hquot : a.toNat / 2 ^ h + 1 ≤ k := by
      have : (a.toNat / 2 ^ h + 1) * 2 ^ h ≤ k * 2 ^ h := by
        rw [Nat.mul_comm k, ← hk, Nat.add_mul]
        omega
      exact Nat.le_of_mul_le_mul_right this (Nat.two_pow_pos h)
    have hsplit : 2 ^ w - 1 - a.toNat =
        2 ^ h * (k - (a.toNat / 2 ^ h + 1)) + (2 ^ h - 1 - a.toNat % 2 ^ h) := by
      rw [Nat.mul_sub, ← hk, Nat.mul_comm (2 ^ h), Nat.add_mul]
      omega
    rw [hsplit, Nat.mul_add_mod]
    exact Nat.mod_eq_of_lt (by omega)
  have hlt := a.isLt
  have hpos := Nat.mod_lt a.toNat (Nat.two_pow_pos h)
  have hle := Nat.mod_le a.toNat (2 ^ h)
  have hroom := sub_mod_add_le (a := a) hh
  rw [hcompl, BitVec.toNat_not, toNat_and_contiguousMask, BitVec.toNat_not, hmod]
  omega

/-! ## Numbered addresses -/

/-- The number that leads to the address of the network. -/
theorem add_eq_network_iff {base i : BitVec w} :
    base + i = networkAddress base (contiguousMask w h) ↔
      i.toNat = (2 ^ w - base.toNat % 2 ^ h) % 2 ^ w := by
  have hbase := base.isLt
  have hi := i.isLt
  have hle := Nat.mod_le base.toNat (2 ^ h)
  rw [networkAddress, ← BitVec.toNat_inj, BitVec.toNat_add, toNat_and_contiguousMask]
  generalize base.toNat % 2 ^ h = p at *
  rcases Nat.lt_or_ge (base.toNat + i.toNat) (2 ^ w) with hlt | hge
  · rw [Nat.mod_eq_of_lt hlt]
    rcases Nat.eq_zero_or_pos p with rfl | hp
    · rw [Nat.sub_zero, Nat.sub_zero, Nat.mod_self]
      omega
    · rw [Nat.mod_eq_of_lt (by omega : 2 ^ w - p < 2 ^ w)]
      omega
  · rw [Nat.mod_eq_sub_mod hge, Nat.mod_eq_of_lt (by omega)]
    rcases Nat.eq_zero_or_pos p with rfl | hp
    · rw [Nat.sub_zero, Nat.sub_zero, Nat.mod_self]
      omega
    · rw [Nat.mod_eq_of_lt (by omega : 2 ^ w - p < 2 ^ w)]
      omega

/-- The number that leads to the directed broadcast address. -/
theorem add_eq_broadcast_iff {base i : BitVec w} (hh : h ≤ w) :
    base + i = broadcastAddress base (contiguousMask w h) ↔
      i.toNat = 2 ^ h - 1 - base.toNat % 2 ^ h := by
  have hbase := base.isLt
  have hi := i.isLt
  have hle := Nat.mod_le base.toNat (2 ^ h)
  have hpos := Nat.mod_lt base.toNat (Nat.two_pow_pos h)
  have hroom := sub_mod_add_le (a := base) hh
  rw [← BitVec.toNat_inj, BitVec.toNat_add, toNat_broadcastAddress hh]
  generalize base.toNat % 2 ^ h = p at *
  rcases Nat.lt_or_ge (base.toNat + i.toNat) (2 ^ w) with hlt | hge
  · rw [Nat.mod_eq_of_lt hlt]
    omega
  · rw [Nat.mod_eq_sub_mod hge, Nat.mod_eq_of_lt (by omega)]
    omega

/-- Addresses for the hosts of one subnet: one for each, and none of the two reserved ones. -/
structure Usable (base mask : BitVec w) (addresses : List (BitVec w)) : Prop where
  distinct : addresses.Nodup
  inside : ∀ a ∈ addresses, networkAddress a mask = networkAddress base mask
  network : ∀ a ∈ addresses, a ≠ networkAddress base mask
  broadcast : ∀ a ∈ addresses, a ≠ broadcastAddress base mask

/-- Distinct numbers that stay in the subnet give usable addresses, but for two of them. -/
theorem usable_map_add_iff {base : BitVec w} {numbers : List (BitVec w)} (hh : h ≤ w)
    (hnumbers : numbers.Nodup)
    (hinside : ∀ i ∈ numbers, SameSubnet (base + i) base (contiguousMask w h)) :
    Usable base (contiguousMask w h) (numbers.map (base + ·)) ↔
      ∀ i ∈ numbers, i.toNat ≠ (2 ^ w - base.toNat % 2 ^ h) % 2 ^ w ∧
        i.toNat ≠ 2 ^ h - 1 - base.toNat % 2 ^ h := by
  constructor
  · intro husable i hi
    have hmem := List.mem_map_of_mem (f := (base + ·)) hi
    exact ⟨fun heq => husable.network _ hmem (add_eq_network_iff.mpr heq),
      fun heq => husable.broadcast _ hmem ((add_eq_broadcast_iff hh).mpr heq)⟩
  · intro hfree
    constructor
    · exact hnumbers.map fun i j heq => BitVec.add_right_inj base |>.mp heq
    · exact List.forall_mem_map.mpr fun i hi => sameSubnet_iff.mp (hinside i hi)
    · exact List.forall_mem_map.mpr fun i hi heq =>
        (hfree i hi).1 (add_eq_network_iff.mp heq)
    · exact List.forall_mem_map.mpr fun i hi heq =>
        (hfree i hi).2 ((add_eq_broadcast_iff hh).mp heq)

end Infra.Subnet
