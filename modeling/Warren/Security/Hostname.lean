import Mathlib.Computability.RegularExpressions
import Warren.Basic

/-! `security.ValidateHostname`: a length check, a split on `'.'` and a per-label check
against `labelRegex`. The regular expression is kept as a term of Mathlib's
`RegularExpression`, matched by its derivative matcher `rmatch`; the main result is that the
validator accepts exactly the hostnames of RFC 1123 with their length limits. -/

namespace Warren.Security

open RegularExpression

def byteRange (lo hi : Nat) : RegularExpression UInt8 :=
  (((List.range' lo (hi + 1 - lo)).map Nat.toUInt8).map char).foldr (· + ·) 0

/-- `[a-zA-Z0-9]` -/
def alnumClass : RegularExpression UInt8 :=
  byteRange 97 122 + byteRange 65 90 + byteRange 48 57

/-- `[a-zA-Z0-9-]` -/
def alnumHyphenClass : RegularExpression UInt8 := alnumClass + char 45

/-- `^[a-zA-Z0-9]([a-zA-Z0-9-]*[a-zA-Z0-9])?$`. Go's `$` matches only at the end of the
text, so `MatchString` accepts the strings of the pattern. Go matches runes rather than bytes;
every class here is ASCII, and a byte of a multi-byte or invalid sequence is in no class
either way, so matching the bytes gives the same answer. -/
def labelRegex : RegularExpression UInt8 :=
  alnumClass * (1 + alnumHyphenClass.star * alnumClass)

def hyphen : UInt8 := 45

def dot : UInt8 := 46

def isAlnum (c : UInt8) : Bool :=
  (97 ≤ c.toNat && c.toNat ≤ 122) || (65 ≤ c.toNat && c.toNat ≤ 90) ||
    (48 ≤ c.toNat && c.toNat ≤ 57)

def isLDH (c : UInt8) : Bool := isAlnum c || c == hyphen

theorem isAlnum_iff (c : UInt8) : isAlnum c ↔ isLDH c ∧ c ≠ hyphen := by
  have : c = hyphen ↔ c.toNat = 45 := ⟨fun h => h ▸ rfl, fun h => UInt8.toNat.inj h⟩
  simp only [isLDH, isAlnum, Bool.or_eq_true, Bool.and_eq_true, decide_eq_true_eq, beq_iff_eq,
    this, ne_eq]
  omega

theorem mem_sum_chars (cs : List UInt8) (x : List UInt8) :
    x ∈ ((cs.map char).foldr (· + ·) 0 : RegularExpression UInt8).matches' ↔ ∃ c ∈ cs, x = [c] := by
  induction cs with
  | nil => simp
  | cons c cs ih =>
    simp only [List.map_cons, List.foldr_cons, matches'_add, Language.mem_add, matches'_char, ih,
      List.mem_cons, exists_eq_or_imp]
    rfl

theorem mem_byteRange {lo hi : Nat} (hhi : hi < 256) (x : List UInt8) :
    x ∈ (byteRange lo hi).matches' ↔ ∃ c : UInt8, x = [c] ∧ lo ≤ c.toNat ∧ c.toNat ≤ hi := by
  rw [byteRange, mem_sum_chars]
  constructor
  · rintro ⟨_, hc, rfl⟩
    obtain ⟨n, hn, rfl⟩ := List.mem_map.1 hc
    rw [List.mem_range'_1] at hn
    refine ⟨_, rfl, ?_⟩
    rw [Nat.toUInt8, UInt8.toNat_ofNat_of_lt (by simp [UInt8.size]; omega)]
    omega
  · rintro ⟨c, rfl, hlo, hhi'⟩
    refine ⟨c, List.mem_map.2 ⟨c.toNat, List.mem_range'_1.2 (by omega), ?_⟩, rfl⟩
    exact UInt8.toNat.inj (UInt8.toNat_ofNat_of_lt c.val.isLt)

theorem mem_alnumClass (x : List UInt8) :
    x ∈ alnumClass.matches' ↔ ∃ c, x = [c] ∧ isAlnum c := by
  simp only [alnumClass, matches'_add, Language.mem_add, mem_byteRange (by omega : 122 < 256),
    mem_byteRange (by omega : 90 < 256), mem_byteRange (by omega : 57 < 256), isAlnum,
    Bool.or_eq_true, Bool.and_eq_true, decide_eq_true_eq, ← exists_or, ← and_or_left]

theorem mem_alnumHyphenClass (x : List UInt8) :
    x ∈ alnumHyphenClass.matches' ↔ ∃ c, x = [c] ∧ isLDH c := by
  simp only [alnumHyphenClass, matches'_add, Language.mem_add, mem_alnumClass, matches'_char,
    isLDH, Bool.or_eq_true, beq_iff_eq, and_or_left, exists_or, exists_eq_right, hyphen]
  rfl

theorem mem_kstar_of_class {l : Language UInt8} {p : UInt8 → Bool}
    (hl : ∀ x, x ∈ l ↔ ∃ c, x = [c] ∧ p c) (x : List UInt8) :
    x ∈ KStar.kstar l ↔ ∀ c ∈ x, p c := by
  rw [Language.mem_kstar]
  constructor
  · rintro ⟨L, rfl, hL⟩ c hc
    obtain ⟨y, hy, hcy⟩ := List.mem_flatten.1 hc
    obtain ⟨d, rfl, hd⟩ := (hl y).1 (hL y hy)
    rwa [List.mem_singleton.1 hcy]
  · intro hx
    refine ⟨x.map fun c => [c], (List.flatMap_singleton' x).symm, fun y hy => ?_⟩
    obtain ⟨c, hc, rfl⟩ := List.mem_map.1 hy
    exact (hl _).2 ⟨c, rfl, hx c hc⟩

theorem mem_labelRegex_iff_shape (x : List UInt8) :
    x ∈ labelRegex.matches' ↔ ∃ c, isAlnum c ∧
      (x = [c] ∨ ∃ w d, (∀ e ∈ w, isLDH e) ∧ isAlnum d ∧ x = c :: (w ++ [d])) := by
  simp only [labelRegex, matches'_mul, matches'_add, matches'_star, matches'_epsilon,
    Language.mem_mul, Language.mem_add, Language.mem_one, mem_alnumClass,
    mem_kstar_of_class mem_alnumHyphenClass]
  constructor
  · rintro ⟨_, ⟨c, rfl, hc⟩, b, hb, rfl⟩
    rcases hb with rfl | ⟨w, hw, _, ⟨d, rfl, hd⟩, rfl⟩
    · exact ⟨c, hc, .inl rfl⟩
    · exact ⟨c, hc, .inr ⟨w, d, hw, hd, rfl⟩⟩
  · rintro ⟨c, hc, rfl | ⟨w, d, hw, hd, rfl⟩⟩
    · exact ⟨[c], ⟨c, rfl, hc⟩, [], .inl rfl, rfl⟩
    · exact ⟨[c], ⟨c, rfl, hc⟩, w ++ [d], .inr ⟨w, hw, [d], ⟨d, rfl, hd⟩, rfl⟩, rfl⟩

theorem mem_labelRegex (x : List UInt8) :
    x ∈ labelRegex.matches' ↔
      x ≠ [] ∧ (∀ c ∈ x, isLDH c) ∧ x.head? ≠ some hyphen ∧ x.getLast? ≠ some hyphen := by
  rw [mem_labelRegex_iff_shape]
  constructor
  · rintro ⟨c, hc, rfl | ⟨w, d, hw, hd, rfl⟩⟩
    · simpa using (isAlnum_iff c).1 hc
    · have hc' := (isAlnum_iff c).1 hc
      have hd' := (isAlnum_iff d).1 hd
      refine ⟨List.cons_ne_nil _ _, fun e he => ?_, by simpa using hc'.2, ?_⟩
      · simp only [List.mem_cons, List.mem_append, List.not_mem_nil, or_false] at he
        rcases he with rfl | he | rfl
        exacts [hc'.1, hw e he, hd'.1]
      · rw [← List.cons_append, List.getLast?_concat]
        simpa using hd'.2
  · rintro ⟨hne, hall, hhead, hlast⟩
    obtain ⟨c, rest, rfl⟩ := List.exists_cons_of_ne_nil hne
    have hc : isAlnum c := (isAlnum_iff c).2 ⟨hall c (List.mem_cons_self c rest), by simpa using hhead⟩
    refine ⟨c, hc, ?_⟩
    rcases List.eq_nil_or_concat rest with rfl | ⟨w, d, rfl⟩
    · exact .inl rfl
    · rw [List.concat_eq_append] at hall hlast ⊢
      rw [← List.cons_append, List.getLast?_concat] at hlast
      refine .inr ⟨w, d, fun e he => hall e (by simp [he]), (isAlnum_iff d).2 ⟨hall d (by simp),
        by simpa using hlast⟩, rfl⟩

/-- The errors of `ValidateHostname`, one per `fmt.Errorf` of the source. -/
inductive HostnameError
  /-- "hostname is empty" -/
  | empty
  /-- "hostname exceeds 253 characters" -/
  | tooLong
  /-- "hostname contains empty label" -/
  | emptyLabel
  /-- "hostname label %q exceeds 63 characters" -/
  | labelTooLong (label : List UInt8)
  /-- "hostname label %q contains invalid characters" -/
  | invalidCharacters (label : List UInt8)
deriving DecidableEq, Repr

/-- The body of `ValidateHostname`'s loop over the labels. -/
def validateLabel (label : List UInt8) : Except HostnameError Unit :=
  if label.length = 0 then .error .emptyLabel
  else if label.length > 63 then .error (.labelTooLong label)
  else if !labelRegex.rmatch label then .error (.invalidCharacters label)
  else .ok ()

def validateHostname (hostname : List UInt8) : Except HostnameError Unit :=
  if hostname = [] then .error .empty
  else if hostname.length > 253 then .error .tooLong
  else (hostname.splitOn dot).forM validateLabel

/-- A label of RFC 1123: 1 to 63 letters, digits and hyphens, neither first nor last a
hyphen. -/
def IsLabel (l : List UInt8) : Prop :=
  1 ≤ l.length ∧ l.length ≤ 63 ∧ (∀ c ∈ l, isLDH c) ∧ l.head? ≠ some hyphen ∧
    l.getLast? ≠ some hyphen

/-- A hostname of RFC 1123: one or more labels joined by dots, 253 bytes at most. -/
def IsHostname (h : List UInt8) : Prop :=
  ∃ labels : List (List UInt8), labels ≠ [] ∧ h = [dot].intercalate labels ∧ h.length ≤ 253 ∧
    ∀ l ∈ labels, IsLabel l

theorem isLabel_iff (l : List UInt8) : IsLabel l ↔ l.length ≤ 63 ∧ labelRegex.rmatch l := by
  rw [rmatch_iff_matches', mem_labelRegex, IsLabel, Nat.one_le_iff_ne_zero, Ne,
    List.length_eq_zero]
  tauto

theorem validateLabel_eq_ok_iff (l : List UInt8) : validateLabel l = .ok () ↔ IsLabel l := by
  rw [isLabel_iff]
  unfold validateLabel
  split_ifs with h0 h1 h2 <;> simp_all [mem_labelRegex]

theorem dot_not_mem_of_isLabel {l : List UInt8} (hl : IsLabel l) : dot ∉ l :=
  fun h => absurd (hl.2.2.1 dot h) (by decide)

theorem not_isLabel_nil : ¬IsLabel [] := fun h => by simpa using h.1

theorem validateHostname_eq_ok_iff (h : List UInt8) :
    validateHostname h = .ok () ↔ h.length ≤ 253 ∧ ∀ l ∈ h.splitOn dot, IsLabel l := by
  unfold validateHostname
  split_ifs with h0 h1
  · subst h0
    simp [not_isLabel_nil]
  · simp only [reduceCtorEq, false_iff, not_and]
    omega
  · simp only [forM_eq_ok_iff, validateLabel_eq_ok_iff, and_iff_right (by omega : h.length ≤ 253)]

theorem isHostname_iff (h : List UInt8) :
    IsHostname h ↔ h.length ≤ 253 ∧ ∀ l ∈ h.splitOn dot, IsLabel l := by
  constructor
  · rintro ⟨labels, hne, rfl, hlen, hl⟩
    rw [List.splitOn_intercalate labels dot (fun l hm => dot_not_mem_of_isLabel (hl l hm)) hne]
    exact ⟨hlen, hl⟩
  · rintro ⟨hlen, hl⟩
    exact ⟨h.splitOn dot, List.splitOnP_ne_nil _ _, (List.intercalate_splitOn h dot).symm, hlen, hl⟩

theorem splitOn_append_cons {α : Type} [DecidableEq α] (x : α) (s t : List α) :
    (s ++ x :: t).splitOn x = s.splitOn x ++ t.splitOn x := by
  simp only [List.splitOn]
  induction s with
  | nil => simp
  | cons a s ih =>
    rw [List.cons_append, List.splitOnP_cons, List.splitOnP_cons, ih]
    split
    · rfl
    · obtain ⟨l, ls, hl⟩ := List.exists_cons_of_ne_nil (List.splitOnP_ne_nil (· == x) s)
      rw [hl]
      rfl

theorem nil_mem_splitOn {α : Type} [DecidableEq α] (x : α) (s t : List α)
    (h : s = [] ∨ t = [] ∨ t.head? = some x) : [] ∈ (s ++ x :: t).splitOn x := by
  rw [splitOn_append_cons, List.mem_append]
  rcases h with rfl | rfl | h
  · simp
  · simp
  · obtain ⟨t, rfl⟩ : ∃ t', t = x :: t' := by
      cases t <;> simp_all
    simp [List.splitOn, List.splitOnP_cons]

theorem eq_or_mem_of_mem_intersperse {α : Type} {s y : α} :
    ∀ {ls : List α}, y ∈ ls.intersperse s → y = s ∨ y ∈ ls
  | [], h => by simp at h
  | [_], h => .inr h
  | a :: b :: ls, h => by
    rw [List.intersperse_cons_cons, List.mem_cons, List.mem_cons] at h
    rcases h with rfl | rfl | h
    · exact .inr (List.mem_cons_self _ _)
    · exact .inl rfl
    · rcases eq_or_mem_of_mem_intersperse h with h | h
      exacts [.inl h, .inr (List.mem_cons_of_mem _ h)]

theorem eq_or_mem_splitOn_of_mem {α : Type} [DecidableEq α] (x : α) {h : List α} {c : α}
    (hc : c ∈ h) : c = x ∨ ∃ l ∈ h.splitOn x, c ∈ l := by
  rw [← List.intercalate_splitOn h x, List.intercalate, List.mem_flatten] at hc
  obtain ⟨y, hy, hcy⟩ := hc
  rcases eq_or_mem_of_mem_intersperse hy with rfl | hy
  · exact .inl (List.mem_singleton.1 hcy)
  · exact .inr ⟨y, hy, hcy⟩

theorem validateHostname_rfc1123 (h : List UInt8) :
    (validateHostname h = .ok () ↔ IsHostname h) ∧
      (validateHostname h = .ok () → (∀ c ∈ h, isLDH c ∨ c = dot) ∧ h.head? ≠ some dot ∧
        h.getLast? ≠ some dot ∧ ¬[dot, dot] <:+: h) := by
  rw [isHostname_iff, validateHostname_eq_ok_iff]
  refine ⟨Iff.rfl, fun ⟨_, hl⟩ => ⟨fun c hc => ?_, fun h0 => ?_, fun h0 => ?_, ?_⟩⟩
  · rcases eq_or_mem_splitOn_of_mem dot hc with rfl | ⟨l, hm, hcl⟩
    exacts [.inr rfl, .inl ((hl l hm).2.2.1 c hcl)]
  · obtain ⟨t, rfl⟩ := List.head?_eq_some_iff.1 h0
    exact not_isLabel_nil (hl [] (nil_mem_splitOn dot [] t (.inl rfl)))
  · obtain ⟨s, rfl⟩ := List.getLast?_eq_some_iff.1 h0
    exact not_isLabel_nil (hl [] (nil_mem_splitOn dot s [] (.inr (.inl rfl))))
  · rintro ⟨s, t, rfl⟩
    refine not_isLabel_nil (hl [] ?_)
    simpa using nil_mem_splitOn dot s (dot :: t) (.inr (.inr rfl))

example : validateHostname (ascii "a-b.c") = .ok () := rfl

/-! ### Errors -/

/-- `label` is the first piece of `hostname`'s split on `'.'` that is not an RFC 1123 label,
the loop having reached it: the hostname passed the two checks before the loop. -/
def FirstInvalidLabel (hostname label : List UInt8) : Prop :=
  hostname ≠ [] ∧ hostname.length ≤ 253 ∧ ¬IsLabel label ∧
    ∃ pre post, hostname.splitOn dot = pre ++ label :: post ∧ ∀ l ∈ pre, IsLabel l

/-- What an error of `ValidateHostname` says about the hostname: each message names the
check that failed and, for a label, the first label that fails. -/
def HostnameError.Explains (hostname : List UInt8) : HostnameError → Prop
  | .empty => hostname = []
  | .tooLong => hostname ≠ [] ∧ 253 < hostname.length
  | .emptyLabel => FirstInvalidLabel hostname []
  | .labelTooLong label => FirstInvalidLabel hostname label ∧ 63 < label.length
  | .invalidCharacters label => FirstInvalidLabel hostname label ∧ label ≠ [] ∧ label.length ≤ 63

theorem validateLabel_eq_error (l : List UInt8) (e : HostnameError) (h : validateLabel l = .error e) :
    ¬IsLabel l ∧ (l = [] ∧ e = .emptyLabel ∨ 63 < l.length ∧ e = .labelTooLong l ∨
      l ≠ [] ∧ l.length ≤ 63 ∧ e = .invalidCharacters l) := by
  refine ⟨fun hl => by simp [(validateLabel_eq_ok_iff l).2 hl] at h, ?_⟩
  unfold validateLabel at h
  split_ifs at h with h0 h1 <;> cases h
  · exact .inl ⟨List.length_eq_zero.1 h0, rfl⟩
  · exact .inr (.inl ⟨h1, rfl⟩)
  · exact .inr (.inr ⟨List.length_eq_zero.not.1 h0, by omega, rfl⟩)

theorem validateHostname_eq_error (hostname : List UInt8) (e : HostnameError)
    (h : validateHostname hostname = .error e) : e.Explains hostname := by
  unfold validateHostname at h
  split_ifs at h with h0 h1
  · cases h
    exact h0
  · cases h
    exact ⟨h0, h1⟩
  · obtain ⟨pre, l, post, hsplit, hpre, hl⟩ := forM_eq_error _ _ _ h
    obtain ⟨hbad, hcase⟩ := validateLabel_eq_error l e hl
    have hfirst : FirstInvalidLabel hostname l :=
      ⟨h0, by omega, hbad, pre, post, hsplit, fun l' hl' => (validateLabel_eq_ok_iff l').1 (hpre l' hl')⟩
    rcases hcase with ⟨rfl, rfl⟩ | ⟨hlen, rfl⟩ | ⟨hne, hlen, rfl⟩
    exacts [hfirst, ⟨hfirst, hlen⟩, ⟨hfirst, hne, hlen⟩]

theorem validateHostname_eq_error_trailing_hyphen :
    validateHostname (ascii "a.b-") = .error (.invalidCharacters (ascii "b-")) ∧
      (HostnameError.invalidCharacters (ascii "b-")).Explains (ascii "a.b-") :=
  ⟨rfl, validateHostname_eq_error _ _ rfl⟩

end Warren.Security
