import Mathlib.Tactic.Ring
import Warren.Basic

/-! `net.IP` as the Go standard library represents it, with the address predicates and the
CIDR containment test `rejectPrivateIP` calls. An address is a 4-byte or a 16-byte slice,
the latter possibly an IPv4-mapped `::ffff:a.b.c.d`. `IP.value` reads either form as one
128-bit address, and `Cidr` states blocks over that value, independently of the
representation the code is handed. -/

namespace Warren.Security

/-- `net.IP`: 4 bytes for IPv4, 16 for IPv6; `net.ParseIP` and `net.LookupIP` return only
these two lengths. -/
structure IP where
  bytes : List UInt8
  length_mem : bytes.length = 4 ∨ bytes.length = 16
deriving DecidableEq

/-- `v4InV6Prefix` -/
def v4InV6Prefix : List UInt8 := [0, 0, 0, 0, 0, 0, 0, 0, 0, 0, 0xff, 0xff]

/-- `IPv6loopback`, `::1`. -/
def ipv6Loopback : List UInt8 := [0, 0, 0, 0, 0, 0, 0, 0, 0, 0, 0, 0, 0, 0, 0, 1]

theorem ipv6Loopback_length : ipv6Loopback.length = 16 := rfl

/-- `IP.To4` -/
def to4 (ip : List UInt8) : Option (List UInt8) :=
  if ip.length = 4 then some ip
  else if ip.length = 16 ∧ (ip.take 10).all (· == 0) ∧ ip.getD 10 0 = 0xff ∧
    ip.getD 11 0 = 0xff then some (ip.drop 12)
  else none

/-- `IP.Equal` -/
def ipEqual (ip x : List UInt8) : Bool :=
  if ip.length = x.length then ip == x
  else if ip.length = 4 ∧ x.length = 16 then x.take 12 == v4InV6Prefix && ip == x.drop 12
  else if ip.length = 16 ∧ x.length = 4 then ip.take 12 == v4InV6Prefix && ip.drop 12 == x
  else false

namespace IP

def isLoopback (ip : IP) : Bool :=
  match to4 ip.bytes with
  | some ip4 => ip4.getD 0 0 == 127
  | none => ipEqual ip.bytes ipv6Loopback

def isLinkLocalUnicast (ip : IP) : Bool :=
  match to4 ip.bytes with
  | some ip4 => ip4.getD 0 0 == 169 && ip4.getD 1 0 == 254
  | none => ip.bytes.length == 16 && ip.bytes.getD 0 0 == 0xfe &&
      ip.bytes.getD 1 0 &&& 0xc0 == 0x80

def isLinkLocalMulticast (ip : IP) : Bool :=
  match to4 ip.bytes with
  | some ip4 => ip4.getD 0 0 == 224 && ip4.getD 1 0 == 0 && ip4.getD 2 0 == 0
  | none => ip.bytes.length == 16 && ip.bytes.getD 0 0 == 0xff &&
      ip.bytes.getD 1 0 &&& 0x0f == 0x02

end IP

/-- `net.IPNet` -/
structure IPNet where
  ip : List UInt8
  mask : List UInt8
deriving DecidableEq, Repr

/-- `net.CIDRMask(ones, 8 * len)`: byte by byte, `0xff` while eight or more ones are left. -/
def cidrMask : Nat → Nat → List UInt8
  | _, 0 => []
  | n, len + 1 => (if n ≥ 8 then 0xff else ~~~(0xff >>> n.toUInt8)) :: cidrMask (n - 8) len

/-- The value `net.ParseCIDR` returns for the IPv4 block `a.b.c.d/ones`: the address masked,
in its 4-byte form, and the 4-byte mask. -/
def parseCIDR4 (a b c d : UInt8) (ones : Nat) : IPNet :=
  ⟨List.zipWith (· &&& ·) [a, b, c, d] (cidrMask ones 4), cidrMask ones 4⟩

/-- `networkNumberAndMask` -/
def networkNumberAndMask (n : IPNet) : Option (List UInt8 × List UInt8) :=
  let ip? := match to4 n.ip with
    | some ip => some ip
    | none => if n.ip.length = 16 then some n.ip else none
  match ip? with
  | none => none
  | some ip =>
    if n.mask.length = 4 then (if ip.length = 4 then some (ip, n.mask) else none)
    else if n.mask.length = 16 then some (ip, if ip.length = 4 then n.mask.drop 12 else n.mask)
    else none

/-- `IPNet.Contains`'s loop: `nn[i]&m[i] == ip[i]&m[i]` at every index. -/
def maskedEq : List UInt8 → List UInt8 → List UInt8 → Bool
  | n :: nn, m :: ms, b :: bs => (n &&& m == b &&& m) && maskedEq nn ms bs
  | _, _, _ => true

/-- `IPNet.Contains` -/
def IPNet.contains (n : IPNet) (ip : IP) : Bool :=
  match networkNumberAndMask n with
  | none => false
  | some (nn, m) =>
    let ip' := (to4 ip.bytes).getD ip.bytes
    ip'.length == nn.length && maskedEq nn m ip'

/-- Big-endian value of a byte string. -/
def bytesValue (bs : List UInt8) : Nat := bs.foldl (fun n b => n * 256 + b.toNat) 0

/-- `IP.To16`: the 16-byte form of an address. -/
def IP.to16 (ip : IP) : List UInt8 :=
  if ip.bytes.length = 4 then v4InV6Prefix ++ ip.bytes else ip.bytes

/-- The 128-bit address an `IP` denotes, the same for both forms of an IPv4 address. -/
def IP.value (ip : IP) : Nat := bytesValue ip.to16

/-- The CIDR block of the addresses that agree with `base` on the first `bits` bits. -/
structure Cidr where
  base : Nat
  bits : Nat
deriving DecidableEq, Repr

def Cidr.contains (c : Cidr) (ip : IP) : Prop :=
  ip.value / 2 ^ (128 - c.bits) = c.base / 2 ^ (128 - c.bits)

instance (c : Cidr) : DecidablePred c.contains := fun ip =>
  inferInstanceAs (Decidable (ip.value / 2 ^ (128 - c.bits) = c.base / 2 ^ (128 - c.bits)))

/-- The IPv4 block `a.b.c.d/bits`, as the block of its IPv4-mapped addresses. -/
def Cidr.v4 (a b c d bits : Nat) : Cidr :=
  ⟨0xffff * 2 ^ 32 + a * 2 ^ 24 + b * 2 ^ 16 + c * 2 ^ 8 + d, 96 + bits⟩

/-! ### Big-endian byte strings -/

theorem foldl_bytesValue (init : Nat) (bs : List UInt8) :
    bs.foldl (fun n b => n * 256 + b.toNat) init = init * 256 ^ bs.length + bytesValue bs := by
  induction bs generalizing init with
  | nil => simp [bytesValue]
  | cons b bs ih =>
    rw [bytesValue, List.foldl_cons, List.foldl_cons, ih, ih, List.length_cons, pow_succ]
    ring

theorem bytesValue_append (p q : List UInt8) :
    bytesValue (p ++ q) = bytesValue p * 256 ^ q.length + bytesValue q := by
  rw [bytesValue, List.foldl_append, foldl_bytesValue]
  rfl

@[simp] theorem bytesValue_nil : bytesValue [] = 0 := rfl

@[simp] theorem bytesValue_cons (b : UInt8) (bs : List UInt8) :
    bytesValue (b :: bs) = b.toNat * 256 ^ bs.length + bytesValue bs := by
  rw [← List.singleton_append, bytesValue_append]
  simp [bytesValue]

theorem bytesValue_lt (bs : List UInt8) : bytesValue bs < 256 ^ bs.length := by
  induction bs with
  | nil => simp
  | cons b bs ih =>
    have hb := byte_lt b
    rw [bytesValue_cons]
    calc b.toNat * 256 ^ bs.length + bytesValue bs
        < (b.toNat + 1) * 256 ^ bs.length := by rw [Nat.succ_mul]; omega
      _ ≤ 256 ^ (b :: bs).length := by
        rw [List.length_cons, pow_succ, Nat.mul_comm _ 256]
        exact Nat.mul_le_mul_right _ hb

theorem bytesValue_append_div (p q : List UInt8) :
    bytesValue (p ++ q) / 256 ^ q.length = bytesValue p := by
  rw [bytesValue_append, Nat.mul_comm, Nat.mul_add_div (Nat.pos_pow_of_pos _ (by decide)),
    Nat.div_eq_of_lt (bytesValue_lt q), Nat.add_zero]

theorem bytesValue_inj {p q : List UInt8} (h : p.length = q.length) :
    bytesValue p = bytesValue q ↔ p = q := by
  refine ⟨fun hv => ?_, congrArg _⟩
  induction p generalizing q with
  | nil => cases q <;> simp_all
  | cons b p ih =>
    cases q with
    | nil => simp at h
    | cons c q =>
      simp only [List.length_cons, Nat.add_right_cancel_iff] at h
      simp only [bytesValue_cons, h] at hv
      have split : ∀ x v, v < 256 ^ q.length →
          (x * 256 ^ q.length + v) / 256 ^ q.length = x ∧ (x * 256 ^ q.length + v) % 256 ^ q.length = v :=
        fun x v hv => (Nat.div_mod_unique (Nat.pos_pow_of_pos _ (by decide))).2 ⟨by ring, hv⟩
      obtain ⟨hb, hp⟩ := split b.toNat _ (h ▸ bytesValue_lt p)
      obtain ⟨hc, hq⟩ := split c.toNat _ (bytesValue_lt q)
      rw [hv] at hb hp
      rw [ih h (hp.symm.trans hq), byte_eq_iff.2 (hb.symm.trans hc)]

theorem bytesValue_four (a b c d : UInt8) :
    bytesValue [a, b, c, d] = a.toNat * 2 ^ 24 + b.toNat * 2 ^ 16 + c.toNat * 2 ^ 8 + d.toNat := by
  simp only [bytesValue_cons, bytesValue_nil, List.length_cons, List.length_nil]
  omega

theorem bytesValue_mapped (a b c d : UInt8) :
    bytesValue (v4InV6Prefix ++ [a, b, c, d]) =
      0xffff * 2 ^ 32 + a.toNat * 2 ^ 24 + b.toNat * 2 ^ 16 + c.toNat * 2 ^ 8 + d.toNat := by
  have prefix_value : bytesValue v4InV6Prefix = 0xffff := rfl
  simp only [bytesValue_append, prefix_value, bytesValue_cons, bytesValue_nil, List.length_cons,
    List.length_nil]
  omega

/-! ### The two forms of an address

`IP.Equal` holds of two addresses exactly when they have one value: it identifies the 4-byte
and the IPv4-mapped forms of an IPv4 address, and nothing else. -/

theorem IP.value_of_length_four {ip : IP} (h : ip.bytes.length = 4) :
    ip.value = bytesValue (v4InV6Prefix ++ ip.bytes) := by
  simp [IP.value, IP.to16, h]

theorem IP.value_of_length_sixteen (bytes : List UInt8) (h) (h16 : bytes.length = 16) :
    IP.value ⟨bytes, h⟩ = bytesValue bytes := by
  simp [IP.value, IP.to16, h16]

theorem to4_of_length_sixteen {l : List UInt8} (h : l.length = 16) :
    to4 l = if l.take 12 = v4InV6Prefix then some (l.drop 12) else none := by
  match l, h with
  | [b0, b1, b2, b3, b4, b5, b6, b7, b8, b9, b10, b11, b12, b13, b14, b15], _ =>
    simp [to4, v4InV6Prefix, and_assoc]

theorem IP.length_to16 (ip : IP) : ip.to16.length = 16 := by
  rcases ip.length_mem with h | h <;> simp [IP.to16, h, v4InV6Prefix]

theorem IP.value_eq_iff (ip x : IP) : ip.value = x.value ↔ ip.to16 = x.to16 :=
  bytesValue_inj (ip.length_to16.trans x.length_to16.symm)

theorem eq_v4InV6Prefix_append_iff (l r : List UInt8) :
    l = v4InV6Prefix ++ r ↔ l.take 12 = v4InV6Prefix ∧ l.drop 12 = r := by
  constructor
  · rintro rfl
    exact ⟨List.take_left' rfl, List.drop_left' rfl⟩
  · rintro ⟨h1, h2⟩
    rw [← List.take_append_drop 12 l, h1, h2]

theorem ipEqual_iff_value_eq (ip x : IP) : ipEqual ip.bytes x.bytes = true ↔ ip.value = x.value := by
  rw [IP.value_eq_iff]
  obtain ⟨p, hp | hp⟩ := ip <;> obtain ⟨q, hq | hq⟩ := x <;>
    simp only [ipEqual, IP.to16, hp, hq, if_true, if_false, beq_iff_eq, Bool.and_eq_true,
      List.append_cancel_left_eq, and_self, true_and, Nat.reduceEqDiff]
  · exact (and_congr_right' eq_comm).trans ((eq_v4InV6Prefix_append_iff q p).symm.trans eq_comm)
  · exact (eq_v4InV6Prefix_append_iff p q).symm

theorem IP.shape (ip : IP) :
    (∃ a b c d : UInt8, to4 ip.bytes = some [a, b, c, d] ∧ ip.value =
      0xffff * 2 ^ 32 + a.toNat * 2 ^ 24 + b.toNat * 2 ^ 16 + c.toNat * 2 ^ 8 + d.toNat ∧
      a.toNat < 256 ∧ b.toNat < 256 ∧ c.toNat < 256 ∧ d.toNat < 256) ∨
    (to4 ip.bytes = none ∧ ip.bytes.length = 16 ∧ ∃ b0 b1 rest, ip.bytes = b0 :: b1 :: rest ∧
      ip.value / 2 ^ 112 = b0.toNat * 256 + b1.toNat ∧ ip.value / 2 ^ 32 ≠ 0xffff ∧
      (ip.bytes = ipv6Loopback ↔ ip.value = 1)) := by
  obtain ⟨bytes, h4 | h16⟩ := ip
  · match bytes, h4 with
    | [a, b, c, d], _ =>
      exact .inl ⟨a, b, c, d, rfl, (IP.value_of_length_four (by rfl)).trans (bytesValue_mapped ..),
        byte_lt a, byte_lt b, byte_lt c, byte_lt d⟩
  · rw [IP.value_of_length_sixteen _ _ h16, to4_of_length_sixteen h16]
    have hsplit := List.take_append_drop 12 bytes
    have hdrop : (bytes.drop 12).length = 4 := by simp [h16]
    by_cases hp : bytes.take 12 = v4InV6Prefix
    · match hq : bytes.drop 12, hdrop with
      | [a, b, c, d], _ =>
        refine .inl ⟨a, b, c, d, if_pos hp, ?_, byte_lt a, byte_lt b, byte_lt c, byte_lt d⟩
        rw [← hsplit, hp, hq, bytesValue_mapped]
    · have hv32 := bytesValue_append_div (bytes.take 12) (bytes.drop 12)
      have hne : bytesValue (bytes.take 12) ≠ 0xffff :=
        (mt (bytesValue_inj (by simp [h16]; rfl)).1 hp : _ ≠ bytesValue v4InV6Prefix)
      rw [hsplit, hdrop] at hv32
      refine .inr ⟨if_neg hp, h16, ?_⟩
      match bytes, h16 with
      | b0 :: b1 :: rest, h16 =>
        have hrest : rest.length = 14 := by simp only [List.length_cons] at h16; omega
        refine ⟨b0, b1, rest, rfl, ?_, ?_, ?_⟩
        · calc bytesValue (b0 :: b1 :: rest) / 2 ^ 112
              = bytesValue ([b0, b1] ++ rest) / 256 ^ rest.length := by rw [hrest]; rfl
            _ = bytesValue [b0, b1] := bytesValue_append_div _ _
            _ = b0.toNat * 256 + b1.toNat := by simp
        · omega
        · exact (bytesValue_inj (h16.trans ipv6Loopback_length.symm)).symm

/-! ### The address predicates as CIDR blocks -/

theorem IP.isLoopback_iff (ip : IP) :
    ip.isLoopback ↔ (Cidr.v4 127 0 0 0 8).contains ip ∨ (⟨1, 128⟩ : Cidr).contains ip := by
  rcases ip.shape with ⟨a, b, c, d, h4, hv, ha, hb, hc, hd⟩ | ⟨h4, h16, b0, b1, rest, -, -, hv32, hloop⟩
  · have code : ip.isLoopback ↔ a.toNat = 127 := by
      rw [isLoopback, h4]
      exact byte_beq_iff
    simp only [code, Cidr.contains, Cidr.v4, hv]
    omega
  · have code : ip.isLoopback ↔ ip.bytes = ipv6Loopback := by
      rw [isLoopback, h4]
      simp [ipEqual, h16, ipv6Loopback_length]
    simp only [code, hloop, Cidr.contains, Cidr.v4]
    omega

theorem IP.isLinkLocalUnicast_iff (ip : IP) :
    ip.isLinkLocalUnicast ↔
      (Cidr.v4 169 254 0 0 16).contains ip ∨ (⟨0xfe80 * 2 ^ 112, 10⟩ : Cidr).contains ip := by
  rcases ip.shape with ⟨a, b, c, d, h4, hv, ha, hb, hc, hd⟩ | ⟨h4, h16, b0, b1, rest, hrest, hv112, hv32, -⟩
  · have code : ip.isLinkLocalUnicast ↔ a.toNat = 169 ∧ b.toNat = 254 := by
      rw [isLinkLocalUnicast, h4]
      simp only [Bool.and_eq_true, byte_beq_iff]
      exact Iff.rfl
    simp only [code, Cidr.contains, Cidr.v4, hv]
    omega
  · have code : ip.isLinkLocalUnicast ↔ b0.toNat = 0xfe ∧ b1.toNat / 64 * 64 = 0x80 := by
      rw [isLinkLocalUnicast, h4, h16, hrest, ← land_192 (byte_lt b1)]
      simp only [beq_self_eq_true, Bool.true_and, Bool.and_eq_true, byte_beq_iff, UInt8.and_toNat]
      exact Iff.rfl
    simp only [code, Cidr.contains, Cidr.v4]
    have := byte_lt b1
    omega

theorem IP.isLinkLocalMulticast_iff (ip : IP) :
    ip.isLinkLocalMulticast ↔ (Cidr.v4 224 0 0 0 24).contains ip ∨
      ∃ f < 16, (⟨(0xff02 + 0x10 * f) * 2 ^ 112, 16⟩ : Cidr).contains ip := by
  rcases ip.shape with ⟨a, b, c, d, h4, hv, ha, hb, hc, hd⟩ | ⟨h4, h16, b0, b1, rest, hrest, hv112, hv32, -⟩
  · have code : ip.isLinkLocalMulticast ↔ a.toNat = 224 ∧ b.toNat = 0 ∧ c.toNat = 0 := by
      rw [isLinkLocalMulticast, h4]
      simp only [Bool.and_eq_true, byte_beq_iff, and_assoc]
      exact Iff.rfl
    simp only [code, Cidr.contains, Cidr.v4, hv]
    constructor
    · intro h
      exact .inl (by omega)
    · rintro (h | ⟨f, hf, h⟩) <;> omega
  · have code : ip.isLinkLocalMulticast ↔ b0.toNat = 0xff ∧ b1.toNat % 16 = 2 := by
      rw [isLinkLocalMulticast, h4, h16, hrest, ← land_15]
      simp only [beq_self_eq_true, Bool.true_and, Bool.and_eq_true, byte_beq_iff, UInt8.and_toNat]
      exact Iff.rfl
    simp only [code, Cidr.contains, Cidr.v4]
    have := byte_lt b1
    constructor
    · rintro ⟨h0, h1⟩
      exact .inr ⟨b1.toNat / 16, by omega, by omega⟩
    · rintro (h | ⟨f, hf, h⟩) <;> omega

/-! ### `IPNet.Contains` on the networks `ParseCIDR` returns

`IPNet.Contains` compares masked bytes; on a network `net.ParseCIDR` builds from an IPv4
block it is the arithmetic test of `Cidr.contains`, for every prefix length. -/

theorem div_high_low_eq_iff {a w V U L n : Nat} (hV : V < 2 ^ (8 * L)) (hU : U < 2 ^ (8 * L))
    (hn : n ≤ 8 * L + 8) :
    (a * 2 ^ (8 * L) + V) / 2 ^ (8 * L + 8 - n) = (w * 2 ^ (8 * L) + U) / 2 ^ (8 * L + 8 - n) ↔
      a / 2 ^ (8 - min n 8) = w / 2 ^ (8 - min n 8) ∧
        V / 2 ^ (8 * L - (n - 8)) = U / 2 ^ (8 * L - (n - 8)) := by
  by_cases h8 : 8 ≤ n
  · -- the whole of `a` is in the prefix, and `n - 8` bits of the rest
    have hD : 2 ^ (8 * L) = 2 ^ (8 * L - (n - 8)) * 2 ^ (n - 8) := by
      rw [← pow_add, Nat.sub_add_cancel (by omega)]
    have hpos : 0 < 2 ^ (8 * L - (n - 8)) := Nat.pos_pow_of_pos _ (by decide)
    have hsplit : ∀ x v, v < 2 ^ (8 * L) →
        (x * 2 ^ (8 * L) + v) / 2 ^ (8 * L - (n - 8)) = x * 2 ^ (n - 8) + v / 2 ^ (8 * L - (n - 8)) ∧
        v / 2 ^ (8 * L - (n - 8)) < 2 ^ (n - 8) := fun x v hv => by
      refine ⟨?_, Nat.div_lt_of_lt_mul (hD ▸ hv)⟩
      rw [hD, ← Nat.mul_assoc, Nat.mul_comm x, Nat.mul_assoc, Nat.mul_add_div hpos]
    rw [show 8 * L + 8 - n = 8 * L - (n - 8) by omega, (hsplit a V hV).1, (hsplit w U hU).1,
      show 8 - min n 8 = 0 by omega, pow_zero, Nat.div_one, Nat.div_one]
    have hE : 0 < 2 ^ (n - 8) := Nat.pos_pow_of_pos _ (by decide)
    have digits : ∀ x y, y < 2 ^ (n - 8) →
        (x * 2 ^ (n - 8) + y) / 2 ^ (n - 8) = x ∧ (x * 2 ^ (n - 8) + y) % 2 ^ (n - 8) = y :=
      fun x y hy => (Nat.div_mod_unique hE).2 ⟨by rw [Nat.add_comm, Nat.mul_comm], hy⟩
    constructor
    · intro h
      obtain ⟨ha, hv⟩ := digits a _ (hsplit a V hV).2
      obtain ⟨hw, hu⟩ := digits w _ (hsplit w U hU).2
      rw [h] at ha hv
      exact ⟨ha.symm.trans hw, hv.symm.trans hu⟩
    · rintro ⟨rfl, h⟩
      rw [h]
  · -- only the top `n` bits of `a` are in the prefix
    have hD : 2 ^ (8 * L + 8 - n) = 2 ^ (8 * L) * 2 ^ (8 - n) := by
      rw [← pow_add]; congr 1; omega
    have hpos : 0 < 2 ^ (8 * L) := Nat.pos_pow_of_pos _ (by decide)
    rw [hD, ← Nat.div_div_eq_div_mul, ← Nat.div_div_eq_div_mul, Nat.mul_comm a, Nat.mul_comm w,
      Nat.mul_add_div hpos, Nat.mul_add_div hpos, Nat.div_eq_of_lt hV, Nat.div_eq_of_lt hU,
      show min n 8 = n by omega, show n - 8 = 0 by omega, Nat.sub_zero, Nat.div_eq_of_lt hV,
      Nat.div_eq_of_lt hU]
    exact (and_iff_left rfl).symm

theorem cidrMask_succ (n len : Nat) :
    cidrMask n (len + 1) =
      (if n ≥ 8 then 0xff else ~~~((0xff : UInt8) >>> n.toUInt8)) :: cidrMask (n - 8) len := rfl

@[simp] theorem length_cidrMask (n len : Nat) : (cidrMask n len).length = len := by
  induction len generalizing n with
  | zero => rfl
  | succ len ih => rw [cidrMask_succ, List.length_cons, ih]

theorem land_maskByte (n : Nat) (x : UInt8) :
    (x &&& if n ≥ 8 then 0xff else ~~~((0xff : UInt8) >>> n.toUInt8)).toNat =
      x.toNat / 2 ^ (8 - min n 8) * 2 ^ (8 - min n 8) := by
  have hx := byte_lt x
  split_ifs with h
  · rw [UInt8.and_toNat, show min n 8 = 8 by omega]
    simpa using land_255 hx
  · have hm : ∀ n, n < 8 → (~~~((0xff : UInt8) >>> n.toUInt8)).toNat = 2 ^ 8 - 2 ^ (8 - n) := by
      decide
    rw [UInt8.and_toNat, hm n (by omega), land_high_mask hx (by omega), show min n 8 = n by omega]

theorem maskedByte_beq_iff (n : Nat) (a w : UInt8) :
    ((a &&& if n ≥ 8 then 0xff else ~~~((0xff : UInt8) >>> n.toUInt8)) &&&
          (if n ≥ 8 then 0xff else ~~~((0xff : UInt8) >>> n.toUInt8)) ==
        w &&& if n ≥ 8 then 0xff else ~~~((0xff : UInt8) >>> n.toUInt8)) = true ↔
      a.toNat / 2 ^ (8 - min n 8) = w.toNat / 2 ^ (8 - min n 8) := by
  have hidem : ∀ x m : UInt8, (x &&& m) &&& m = x &&& m := fun x m =>
    byte_eq_iff.2 (by simp only [UInt8.and_toNat, Nat.and_assoc, Nat.and_self])
  rw [byte_beq_iff, hidem, land_maskByte, land_maskByte]
  exact Nat.mul_left_inj (Nat.pos_pow_of_pos _ (by decide)).ne'

theorem maskedEq_cidrMask (p q : List UInt8) (n : Nat) (hlen : p.length = q.length)
    (hn : n ≤ 8 * p.length) :
    maskedEq (p.zipWith (· &&& ·) (cidrMask n p.length)) (cidrMask n p.length) q = true ↔
      bytesValue p / 2 ^ (8 * p.length - n) = bytesValue q / 2 ^ (8 * p.length - n) := by
  induction p generalizing q n with
  | nil =>
    obtain rfl := List.length_eq_zero.1 hlen.symm
    exact iff_of_true rfl rfl
  | cons a p ih =>
    obtain ⟨w, q, rfl⟩ := List.exists_cons_of_length_eq_add_one hlen.symm
    simp only [List.length_cons, Nat.add_right_cancel_iff] at hlen hn ⊢
    have h256 : 256 ^ p.length = 2 ^ (8 * p.length) := by rw [pow_mul]; rfl
    have hV := bytesValue_lt p
    have hU := bytesValue_lt q
    rw [h256] at hV
    rw [← hlen, h256] at hU
    rw [cidrMask_succ, List.zipWith_cons_cons, maskedEq, Bool.and_eq_true, maskedByte_beq_iff,
      ih q (n - 8) hlen (by omega), bytesValue_cons, bytesValue_cons, ← hlen, h256,
      show 8 * (p.length + 1) - n = 8 * p.length + 8 - n by omega, div_high_low_eq_iff hV hU (by omega)]

theorem IPNet.contains_parseCIDR4 (a b c d : UInt8) {ones : Nat} (hones : ones ≤ 32) (ip : IP) :
    (parseCIDR4 a b c d ones).contains ip ↔
      (Cidr.v4 a.toNat b.toNat c.toNat d.toNat ones).contains ip := by
  have hnm : networkNumberAndMask (parseCIDR4 a b c d ones) =
      some ([a, b, c, d].zipWith (· &&& ·) (cidrMask ones 4), cidrMask ones 4) := by
    simp [networkNumberAndMask, parseCIDR4, to4]
  have hexp : 128 - (96 + ones) = 32 - ones := by omega
  have hsplit : ∀ v, v < 2 ^ 32 → (0xffff * 2 ^ 32 + v) / 2 ^ (32 - ones) =
      0xffff * 2 ^ ones + v / 2 ^ (32 - ones) := fun v _ => by
    rw [show (2 : Nat) ^ 32 = 2 ^ ones * 2 ^ (32 - ones) by rw [← pow_add]; congr 1; omega,
      ← Nat.mul_assoc, Nat.add_comm, Nat.add_mul_div_right _ _ (Nat.pos_pow_of_pos _ (by decide)),
      Nat.add_comm]
  have hbase : 0xffff * 2 ^ 32 + a.toNat * 2 ^ 24 + b.toNat * 2 ^ 16 + c.toNat * 2 ^ 8 + d.toNat =
      0xffff * 2 ^ 32 + bytesValue [a, b, c, d] := by
    rw [bytesValue_four]; omega
  have hzl : ([a, b, c, d].zipWith (· &&& ·) (cidrMask ones 4)).length = 4 := by simp
  have hlt : ∀ l : List UInt8, l.length = 4 → bytesValue l < 2 ^ 32 := fun l hl => by
    simpa [hl] using bytesValue_lt l
  rcases ip.shape with ⟨w, x, y, z, h4, hv, -⟩ | ⟨h4, h16, -, -, -, -, -, hv32, -⟩
  · have hv' : ip.value = 0xffff * 2 ^ 32 + bytesValue [w, x, y, z] := by
      rw [hv, bytesValue_four]; omega
    have hm := maskedEq_cidrMask [a, b, c, d] [w, x, y, z] ones rfl (by simpa using hones)
    simp only [List.length_cons, List.length_nil] at hm
    simp only [IPNet.contains, hnm, h4, Option.getD_some, hzl, List.length_cons, List.length_nil,
      beq_self_eq_true, Bool.true_and, hm, Cidr.contains, Cidr.v4, hexp, hv', hbase,
      hsplit _ (hlt [a, b, c, d] rfl), hsplit _ (hlt [w, x, y, z] rfl), Nat.add_left_cancel_iff]
    exact eq_comm
  · simp only [IPNet.contains, hnm, h4, Option.getD_none, h16, hzl, Nat.reduceBEq,
      Bool.false_and, Bool.false_eq_true, false_iff, Cidr.contains, Cidr.v4, hexp, hbase]
    intro h
    apply hv32
    have h32 : ∀ v, v / 2 ^ 32 = v / 2 ^ (32 - ones) / 2 ^ ones := fun v => by
      rw [Nat.div_div_eq_div_mul, ← pow_add]; congr 2; omega
    rw [h32, h, ← h32, Nat.add_comm, Nat.add_mul_div_right _ _ (Nat.pos_pow_of_pos _ (by decide)),
      Nat.div_eq_of_lt (hlt [a, b, c, d] rfl), Nat.zero_add]

theorem IPNet.contains_parseCIDR4_mapped :
    8 ≤ 32 ∧ ((parseCIDR4 10 0 0 0 8).contains ⟨v4InV6Prefix ++ [10, 1, 2, 3], .inr (by rfl)⟩ ↔
      (Cidr.v4 (10 : UInt8).toNat (0 : UInt8).toNat (0 : UInt8).toNat (0 : UInt8).toNat 8).contains
        ⟨v4InV6Prefix ++ [10, 1, 2, 3], .inr (by rfl)⟩) :=
  ⟨by decide, IPNet.contains_parseCIDR4 10 0 0 0 (by decide) _⟩

end Warren.Security
