import CausalUpdate.Conflict.Extract
import CausalUpdate.Proofs.Literal.Reading

/-!
# Constants of rules

A rule is named by the letter `r` with its identifier behind it.  Nothing is lost by that: rules
with the same constant have the same identifier, and a positive identifier is read back from its
constant, as long as a number may have that many digits.

* `Rule.constant_inj` — constants tell identifiers apart.
* `Rule.readConstant_constant` — they name them.
-/

namespace CausalUpdate

open CausalUpdate.Text

/-! ## Digits -/

lemma toDigits_inj {m n : Nat} : Nat.toDigits 10 m = Nat.toDigits 10 n ↔ m = n := by
  refine ⟨fun h => ?_, fun h => by rw [h]⟩
  have := congrArg (Nat.ofDigitChars 10 · 0) h
  simpa [Nat.ofDigitChars_ten_toDigits] using this

lemma digitValue?_of_isDigit {c : Char} (h : c.isDigit) : digitValue? c = some (c.toNat - 48) := by
  simp only [Char.isDigit, Bool.and_eq_true, decide_eq_true_eq, ge_iff_le] at h
  have lower : 0x30 ≤ c.toNat := h.1
  have upper : c.toNat ≤ 0x39 := h.2
  have : 0x30 ≤ c.toNat ∧ c.toNat < 0x30 + 10 := ⟨lower, by omega⟩
  simp only [digitValue?, zeroDigits, List.findSome?_cons, this, and_self, if_true]

lemma foldl_digits {cs : List Char} (h : ∀ c ∈ cs, c.isDigit) (start : Nat) :
    (cs.filterMap digitValue?).foldl (fun n d => 10 * n + d) start =
      Nat.ofDigitChars 10 cs start := by
  induction cs generalizing start with
  | nil => simp
  | cons c cs ih =>
      rw [List.filterMap_cons_some (digitValue?_of_isDigit (h c (by simp))), List.foldl_cons,
        Nat.ofDigitChars_cons, ih fun d hd => h d (List.mem_cons_of_mem _ hd)]
      rfl

/-! ## Constants -/

namespace Rule

/-- The digits of the identifier stand behind the letter, with a sign if it has one. -/
lemma toList_constant (r : Rule) : r.constant.toList =
    'r' :: (if 0 ≤ r.id then Nat.toDigits 10 r.id.toNat
      else '-' :: Nat.toDigits 10 (-r.id).toNat) := by
  rw [constant, String.toList_append, Int.toString_eq_repr, Int.repr_eq_if]
  split <;> simp [Nat.toList_repr]

/-- **Constants tell identifiers apart.** -/
lemma constant_inj {r s : Rule} : r.constant = s.constant ↔ r.id = s.id := by
  have unsigned : ∀ {n : Nat} {cs : List Char}, Nat.toDigits 10 n ≠ '-' :: cs := by
    intro n cs e
    have := Nat.isDigit_of_mem_toDigits (by decide) (by decide)
      (show '-' ∈ Nat.toDigits 10 n by rw [e]; exact List.mem_cons_self)
    exact absurd this (by decide)
  refine ⟨fun h => ?_, fun h => by rw [constant, h, constant]⟩
  rw [← String.toList_inj, toList_constant, toList_constant, List.cons.injEq] at h
  have h := h.2
  split at h <;> split at h
  · have := toDigits_inj.1 h
    omega
  · exact absurd h unsigned
  · exact absurd h.symm unsigned
  · have := toDigits_inj.1 (List.cons.inj h).2
    omega

/-- The identifier is a positive number with as many digits as a number may have. -/
def Named (r : Rule) : Prop :=
  0 < r.id ∧ (toString r.id).length ≤ digitLimit

instance (r : Rule) : Decidable r.Named :=
  inferInstanceAs (Decidable (_ ∧ _))

lemma toList_constant_of_nonneg {r : Rule} (h : 0 ≤ r.id) :
    r.constant.toList = 'r' :: Nat.toDigits 10 r.id.toNat := by
  rw [toList_constant, if_pos h]

lemma length_digits {r : Rule} (h : 0 < r.id) :
    (Nat.toDigits 10 r.id.toNat).length = (toString r.id).length := by
  rw [Int.toString_eq_repr, Int.repr_eq_if, if_pos (by omega), ← String.length_toList,
    Nat.toList_repr]

/-- **A constant names the identifier of its rule**, unless it is too long to be read. -/
lemma readConstant_constant_of_pos {r : Rule} (h : 0 < r.id) :
    readConstant r.constant.toList =
      if digitLimit < (toString r.id).length then .error ⟨(toString r.id).length⟩
      else .ok (some r.id) := by
  have digits : ∀ c ∈ Nat.toDigits 10 r.id.toNat, c.isDigit := fun c hc =>
    Nat.isDigit_of_mem_toDigits (by decide) (by decide) hc
  have kept : dropLineFeed ('r' :: Nat.toDigits 10 r.id.toNat) =
      'r' :: Nat.toDigits 10 r.id.toNat := by
    rw [dropLineFeed, if_neg]
    intro e
    rcases List.mem_cons.1 (List.mem_of_getLast? e) with e | e
    · exact absurd e (by decide)
    · exact absurd (digits _ e) (by decide)
  have decimal : (Nat.toDigits 10 r.id.toNat).all isDecimal := by
    rw [List.all_eq_true]
    intro c hc
    rw [isDecimal, digitValue?_of_isDigit (digits c hc)]
    rfl
  have nonempty : (Nat.toDigits 10 r.id.toNat).isEmpty = false := by
    simp [Nat.toDigits_ne_nil]
  have value : ofDigits ((Nat.toDigits 10 r.id.toNat).filterMap digitValue?) = r.id.toNat := by
    rw [ofDigits, foldl_digits digits, Nat.ofDigitChars_ten_toDigits]
  rw [readConstant, toList_constant_of_nonneg (Int.le_of_lt h), kept]
  simp only [nonempty, decimal, Bool.not_true, Bool.or_false, Bool.false_eq_true, if_false, value,
    length_digits h]
  rw [Int.toNat_of_nonneg (by omega)]

lemma readConstant_constant {r : Rule} (h : r.Named) :
    readConstant r.constant.toList = .ok (some r.id) := by
  rw [readConstant_constant_of_pos h.1, if_neg (Nat.not_lt.2 h.2)]

/-- A constant that can be read names the identifier. -/
lemma named_of_readConstant {r : Rule} (h : 0 < r.id) {o : Option Int}
    (read : readConstant r.constant.toList = .ok o) : r.Named := by
  refine ⟨h, Nat.le_of_not_lt fun long => ?_⟩
  rw [readConstant_constant_of_pos h, if_pos long] at read
  cases read

/-- The constant of a rule can be written as a term, unless its identifier is negative. -/
lemma isTerm_constant {r : Rule} (h : 0 ≤ r.id) : isTerm r.constant.toList := by
  have rest : (Nat.toDigits 10 r.id.toNat).all isIdentifierRest := by
    rw [List.all_eq_true]
    exact fun c hc => isIdentifierRest_of_isDigit
      (Nat.isDigit_of_mem_toDigits (by decide) (by decide) hc)
  have keyword : 'r' :: Nat.toDigits 10 r.id.toNat ≠ notKeyword := by
    rw [notKeyword, ne_eq, List.cons.injEq]
    exact fun e => absurd e.1 (by decide)
  rw [toList_constant_of_nonneg h, isTerm, isIdentifier, rest]
  simp [keyword, isIdentifierStart]

end Rule

end CausalUpdate
