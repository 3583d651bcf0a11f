import Mathlib.Algebra.Group.Int
import Mathlib.Data.List.Basic

/-! Go's primitive values as the models below use them. A Go `string` is an immutable byte
sequence and is modelled as `List UInt8`; a Go `int` is a 64-bit two's complement integer,
modelled as `Int` with `goInt` applied where the source's arithmetic can overflow. -/

namespace Warren

/-- The bytes of an ASCII string literal. -/
def ascii (s : String) : List UInt8 := s.toList.map Char.toUInt8

theorem byte_lt (b : UInt8) : b.toNat < 256 := b.val.isLt

theorem byte_eq_iff {b c : UInt8} : b = c ↔ b.toNat = c.toNat :=
  ⟨congrArg UInt8.toNat, UInt8.toNat.inj⟩

theorem byte_beq_iff {b c : UInt8} : (b == c) = true ↔ b.toNat = c.toNat :=
  beq_iff_eq.trans byte_eq_iff

theorem land_255 {x : Nat} (h : x < 256) : x &&& 255 = x := by
  rw [show (255 : Nat) = 2 ^ 8 - 1 from rfl, Nat.and_pow_two_sub_one_eq_mod]
  exact Nat.mod_eq_of_lt h

theorem land_high_mask {x j : Nat} (hx : x < 2 ^ 8) (hj : j ≤ 8) :
    x &&& (2 ^ 8 - 2 ^ j) = x / 2 ^ j * 2 ^ j := by
  have hm : 2 ^ 8 - 2 ^ j = (2 ^ (8 - j) - 1) <<< j := by
    rw [Nat.shiftLeft_eq, Nat.sub_mul, one_mul, ← pow_add, Nat.sub_add_cancel hj]
  rw [hm, ← Nat.shiftRight_eq_div_pow, ← Nat.shiftLeft_eq]
  apply Nat.eq_of_testBit_eq
  intro i
  simp only [Nat.testBit_and, Nat.testBit_shiftLeft, Nat.testBit_two_pow_sub_one,
    Nat.testBit_shiftRight]
  by_cases hi : j ≤ i
  · by_cases h8 : i < 8
    · simp [hi, Nat.add_sub_cancel' hi, show i - j < 8 - j by omega]
    · have hxi : x < 2 ^ i := lt_of_lt_of_le hx (Nat.pow_le_pow_right (by decide) (by omega))
      simp [hi, Nat.testBit_lt_two_pow hxi]
  · simp [hi]

theorem land_192 {x : Nat} (h : x < 256) : x &&& 192 = x / 64 * 64 :=
  land_high_mask h (show 6 ≤ 8 by decide)

theorem land_15 (x : Nat) : x &&& 15 = x % 16 := Nat.and_pow_two_sub_one_eq_mod x 4

/-- Wrap-around of Go's 64-bit `int`. -/
def goInt (x : Int) : Int := x.bmod (2 ^ 64)

theorem goInt_of_lt {x : Int} (h0 : 0 ≤ x) (h : x < 2 ^ 63) : goInt x = x := by
  rw [goInt, Int.bmod_def]
  split <;> omega

theorem goInt_goInt_add (x y : Int) : goInt (goInt x + y) = goInt (x + y) :=
  Int.bmod_add_bmod_congr

theorem forM_eq_ok_iff {ε α : Type} (f : α → Except ε Unit) (l : List α) :
    l.forM f = .ok () ↔ ∀ x ∈ l, f x = .ok () := by
  induction l with
  | nil => exact iff_of_true rfl (by simp)
  | cons a l ih =>
    simp only [List.forM_cons, List.mem_cons, forall_eq_or_imp, ← ih]
    rcases h : f a with e | u <;> simp [bind, Except.bind, h]

/-- Go's `if c { return err }`. -/
def failIf {ε : Type} (c : Prop) [Decidable c] (err : ε) : Except ε Unit :=
  if c then .error err else .ok ()

@[simp] theorem failIf_eq_ok_iff {ε : Type} (c : Prop) [Decidable c] (err : ε) (u : Unit) :
    failIf c err = .ok u ↔ ¬c := by
  unfold failIf
  split <;> simp_all

@[simp] theorem ite_pure_eq_ok_iff {ε : Type} (c : Prop) [Decidable c] (x : Except ε Unit)
    (u : Unit) : (if c then x else pure ()) = .ok u ↔ (c → x = .ok ()) := by
  split <;> simp_all [pure, Except.pure]

theorem bind_eq_ok_iff {ε α β : Type} (x : Except ε α) (f : α → Except ε β) (b : β) :
    x >>= f = .ok b ↔ ∃ a, x = .ok a ∧ f a = .ok b := by
  cases x <;> simp [bind, Except.bind]

theorem bind_eq_error_iff {ε α β : Type} (x : Except ε α) (f : α → Except ε β) (e : ε) :
    x >>= f = .error e ↔ x = .error e ∨ ∃ a, x = .ok a ∧ f a = .error e := by
  cases x <;> simp [bind, Except.bind]

@[simp] theorem failIf_eq_error_iff {ε : Type} (c : Prop) [Decidable c] (err e : ε) :
    failIf c err = .error e ↔ c ∧ err = e := by
  unfold failIf
  split <;> simp_all

@[simp] theorem ite_pure_eq_error_iff {ε : Type} (c : Prop) [Decidable c] (x : Except ε Unit)
    (e : ε) : (if c then x else pure ()) = .error e ↔ c ∧ x = .error e := by
  split <;> simp_all [pure, Except.pure]

theorem foldlM_eq_error {ε α β : Type} (f : β → α → Except ε β) (l : List α) (init : β) (e : ε)
    (h : l.foldlM f init = .error e) :
    ∃ pre x post s, l = pre ++ x :: post ∧ pre.foldlM f init = .ok s ∧ f s x = .error e := by
  induction l generalizing init with
  | nil => cases h
  | cons x xs ih =>
    rw [List.foldlM_cons, bind_eq_error_iff] at h
    rcases h with hx | ⟨s, hx, hrest⟩
    · exact ⟨[], x, xs, init, rfl, rfl, hx⟩
    · obtain ⟨pre, y, post, s', rfl, hpre, hy⟩ := ih s hrest
      exact ⟨x :: pre, y, post, s', rfl, by rw [List.foldlM_cons, hx]; exact hpre, hy⟩

theorem forM_eq_error {ε α : Type} (f : α → Except ε Unit) (l : List α) (e : ε)
    (h : l.forM f = .error e) :
    ∃ pre x post, l = pre ++ x :: post ∧ (∀ y ∈ pre, f y = .ok ()) ∧ f x = .error e := by
  induction l with
  | nil => cases h
  | cons x xs ih =>
    rcases (bind_eq_error_iff _ _ _).1 h with hx | ⟨u, hx, hrest⟩
    · exact ⟨[], x, xs, rfl, by simp, hx⟩
    · obtain ⟨pre, y, post, rfl, hpre, hy⟩ := ih hrest
      exact ⟨x :: pre, y, post, rfl, List.forall_mem_cons.2 ⟨hx, hpre⟩, hy⟩

theorem mapError_eq_error_iff {ε ε' α : Type} (f : ε → ε') (x : Except ε α) (e : ε') :
    x.mapError f = .error e ↔ ∃ e₀, x = .error e₀ ∧ f e₀ = e := by
  cases x <;> simp [Except.mapError]

theorem mapError_eq_ok_iff {ε ε' α : Type} (f : ε → ε') (x : Except ε α) (a : α) :
    x.mapError f = .ok a ↔ x = .ok a := by
  cases x <;> simp [Except.mapError]

end Warren
