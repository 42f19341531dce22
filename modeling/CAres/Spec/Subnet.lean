import CAres.Engine.Config

/-! # IPv6 subnets and the server blacklist

`ares_ipv6_subnet_matches` (`ares_init.c`, lines 1604-1631) compares two addresses under a byte
mask built from the prefix length: `netmask / 8` whole bytes, then one byte whose top
`netmask % 8` bits are set, from the `int` `0xff << (8 - netmask % 8)` cut to a byte.
`mask_testBit` says which bit of which byte that mask keeps: bit `p` of byte `i` is kept
exactly when it is one of the first `netmask` bits of the address. So the test holds exactly
when `netmask ≤ 128` and the two addresses agree on their first `netmask` bits
(`ipv6SubnetMatches_iff`), for every prefix length and every pair of byte strings.

`ares_ipv6_server_blacklisted` (lines 1634-1660) has one entry, `fec0::/10`: an address is
blacklisted when its first byte is `0xfe` and the top two bits of its second byte are set, and
this is the only IPv6 address the conversion of `parse_dnsaddrport` drops. -/

namespace CAres

/-- Bit `k` of an address in network order: bit 0 is the top bit of byte 0. Bytes past the
end read as 0, as in `ipv6SubnetMatches`. -/
def bitAt (b : Bytes) (k : Nat) : Bool := (b.getD (k / 8) 0).toNat.testBit (7 - k % 8)

theorem testBit_eq_false_of_lt {x p : Nat} (hx : x < 256) (hp : 8 ≤ p) : x.testBit p = false :=
  Nat.testBit_lt_two_pow (Nat.lt_of_lt_of_le hx (Nat.pow_le_pow_right Nat.two_pos hp))

theorem testBit_toNat_of_ge {x : UInt8} {p : Nat} (hp : 8 ≤ p) : x.toNat.testBit p = false :=
  testBit_eq_false_of_lt (UInt8.toNat_lt_size x) hp

/-- Two bytes agree under a mask exactly when they agree on every bit the mask keeps. -/
theorem and_eq_and_iff {x y m : UInt8} :
    x &&& m = y &&& m ↔
      ∀ p < 8, m.toNat.testBit p = true → x.toNat.testBit p = y.toNat.testBit p := by
  constructor
  · intro h p _ hm
    have := congrArg (fun z : UInt8 => z.toNat.testBit p) h
    simpa [UInt8.and_toNat, Nat.testBit_and, hm] using this
  · intro h
    refine UInt8.toNat.inj ?_
    rw [UInt8.and_toNat, UInt8.and_toNat]
    refine Nat.eq_of_testBit_eq fun p => ?_
    simp only [Nat.testBit_and]
    by_cases hp : p < 8
    · cases hm : m.toNat.testBit p
      · simp
      · simp [h p hp hm]
    · simp [testBit_toNat_of_ge (x := m) (p := p) (by omega)]

/-- The partial byte of the mask, `(unsigned char)(0xff << (8 - r))`, keeps the top `r` bits. -/
theorem partial_mask_testBit :
    ∀ r < 8, ∀ p < 8, r ≠ 0 →
      Nat.testBit ((0xff <<< (8 - r) % 256).toUInt8.toNat) p = decide (7 - p < r) := by
  decide

/-- Byte `i` of the mask keeps bit `p` exactly when that bit is among the first `n` bits of the
address. -/
theorem mask_testBit (n i : Nat) {p : Nat} (hp : p < 8) :
    (if i < n / 8 then (0xff : UInt8)
      else if i = n / 8 ∧ n % 8 ≠ 0 then (0xff <<< (8 - n % 8) % 256).toUInt8
      else 0).toNat.testBit p = decide (8 * i + (7 - p) < n) := by
  split_ifs with h₁ h₂
  · rw [decide_eq_true (by omega : 8 * i + (7 - p) < n)]
    revert p; decide
  · rw [partial_mask_testBit _ (Nat.mod_lt _ (by decide)) p hp h₂.2]
    exact decide_eq_decide.mpr (by omega)
  · have : ¬8 * i + (7 - p) < n := by omega
    simp [this]

/-- `ares_ipv6_subnet_matches` holds exactly when the prefix length is at most 128 and the two
addresses agree on their first `netmask` bits. -/
theorem ipv6SubnetMatches_iff (netbase ipaddr : Bytes) (netmask : Nat) :
    ipv6SubnetMatches netbase netmask ipaddr = true ↔
      netmask ≤ 128 ∧ ∀ k < netmask, bitAt netbase k = bitAt ipaddr k := by
  unfold ipv6SubnetMatches
  split_ifs with h
  · simp only [Bool.false_eq_true, false_iff, not_and]; omega
  simp only [List.all_eq_true, List.mem_range, beq_iff_eq, and_eq_and_iff]
  refine ⟨fun hall => ⟨by omega, fun k hk => ?_⟩, fun ⟨_, hbits⟩ i _ p hp hm => ?_⟩
  · have := hall (k / 8) (by omega) (7 - k % 8) (by omega)
    rw [mask_testBit _ _ (by omega)] at this
    exact this (decide_eq_true (by omega))
  · rw [mask_testBit _ _ hp] at hm
    have hk := hbits (8 * i + (7 - p)) (of_decide_eq_true hm)
    unfold bitAt at hk
    rwa [show (8 * i + (7 - p)) / 8 = i by omega, show 7 - (8 * i + (7 - p)) % 8 = p by omega]
      at hk

/-- The top two bits of a byte are set exactly when it is at least `0xc0`. -/
theorem top_bits_iff {y : Nat} (hy : y < 256) :
    y.testBit 7 = true ∧ y.testBit 6 = true ↔ 0xc0 ≤ y := by
  simp only [Nat.testBit_to_div_mod, decide_eq_true_eq]; omega

/-- `fec0::/10`, the one entry of the blacklist: the first byte is `0xfe` and the second has
its top two bits set. -/
theorem ipv6ServerBlacklisted_iff (ip : Bytes) :
    ipv6ServerBlacklisted ip = true ↔
      (ip.getD 0 0).toNat = 0xfe ∧ 0xc0 ≤ (ip.getD 1 0).toNat := by
  rw [ipv6ServerBlacklisted, ipv6SubnetMatches_iff]
  simp only [show (10 : Nat) ≤ 128 by decide, true_and]
  have hy : (ip.getD 1 0).toNat < 256 := UInt8.toNat_lt_size _
  constructor
  · intro h
    refine ⟨Nat.eq_of_testBit_eq fun p => ?_,
      (top_bits_iff hy).mp ⟨(h 8 (by omega)).symm, (h 9 (by omega)).symm⟩⟩
    by_cases hp : p < 8
    · have := h (7 - p) (by omega)
      simp only [bitAt, show (7 - p) / 8 = 0 by omega, show 7 - (7 - p) % 8 = p by omega] at this
      exact this.symm
    · rw [testBit_toNat_of_ge (by omega), testBit_eq_false_of_lt (by decide) (by omega)]
  · rintro ⟨h0, h1⟩ k hk
    rcases Nat.lt_or_ge k 8 with hk8 | hk8
    · simp only [bitAt]; rw [show k / 8 = 0 by omega, h0]; rfl
    · obtain ⟨h7, h6⟩ := (top_bits_iff hy).mpr h1
      obtain rfl | rfl : k = 8 ∨ k = 9 := by omega
      · exact h7.symm
      · exact h6.symm

/-- The conversion of `parse_dnsaddrport` drops an address text exactly when it is not IPv4
and every IPv6 reading of it is blacklisted. -/
theorem ptonHost_eq_none_iff (pton : Nat → List Char → Option Bytes) (addr : List Char) :
    ptonHost pton addr = none ↔
      pton afInet addr = none ∧
        ∀ a, pton afInet6 addr = some a → ipv6ServerBlacklisted a = true := by
  unfold ptonHost
  split
  · simp_all
  · split
    · split <;> simp_all
    · simp_all

/-- `ares_ipv6_subnet_matches` compares exactly the first `netmask` bits, for every prefix
length; so the blacklist is `fec0::/10`, and that range is the only IPv6 one the conversion of
`parse_dnsaddrport` drops. -/
theorem ipv6_subnet_matches_prefix :
    (∀ (netbase ipaddr : Bytes) (netmask : Nat),
      ipv6SubnetMatches netbase netmask ipaddr = true ↔
        netmask ≤ 128 ∧ ∀ k < netmask, bitAt netbase k = bitAt ipaddr k) ∧
    (∀ ip : Bytes, ipv6ServerBlacklisted ip = true ↔
      (ip.getD 0 0).toNat = 0xfe ∧ 0xc0 ≤ (ip.getD 1 0).toNat) ∧
    ∀ (pton : Nat → List Char → Option Bytes) (addr : List Char),
      ptonHost pton addr = none ↔ pton afInet addr = none ∧
        ∀ a, pton afInet6 addr = some a →
          (a.getD 0 0).toNat = 0xfe ∧ 0xc0 ≤ (a.getD 1 0).toNat :=
  ⟨ipv6SubnetMatches_iff, ipv6ServerBlacklisted_iff, fun pton addr => by
    simp only [ptonHost_eq_none_iff, ipv6ServerBlacklisted_iff]⟩

end CAres
