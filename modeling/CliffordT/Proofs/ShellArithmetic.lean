import CliffordT.Host.Shell.Arithmetic
import CliffordT.Proofs.ShellTexts

/-!
# Values of arithmetic expressions

An expression whose text goes wrong has no value, wherever the fault stands; what it sets stands on
top of what was set before; and a variable that has been set is read as the value that it got.

* `Expression.fault?_of_value` : an expression with a value has no fault in its text,
* `Expression.suffix_of_value` : earlier settings stay below,
* `Expression.value_named_of_assign` : what is set is what is read.
-/

namespace CliffordT

namespace Shell

namespace Expression

/-! ### What a value comes from -/

theorem bind_eq_ok {ε α β : Type} {x : Except ε α} {f : α → Except ε β} {b : β} :
    x >>= f = .ok b ↔ ∃ a, x = .ok a ∧ f a = .ok b := by
  cases x <;> simp [bind, Except.bind]

theorem passOver_eq_ok {α : Type} {e : Expression} {a b : α} :
    passOver e a = .ok b ↔ e.fault? = none ∧ a = b := by
  unfold passOver
  cases e.fault? <;> simp

variable {s s' : Settings} {x : Int64}

theorem value_unary {op : UnaryOperator} {a : Expression}
    (h : value s (unary op a) = .ok (x, s')) : ∃ y, value s a = .ok (y, s') := by
  obtain ⟨⟨y, s₁⟩, ha, h⟩ := bind_eq_ok.mp h
  have hs : s₁ = s' := by
    cases op <;> exact congrArg Prod.snd (Except.ok.inj h)
  exact ⟨y, hs ▸ ha⟩

theorem value_binary {op : BinaryOperator} {a b : Expression}
    (h : value s (binary op a b) = .ok (x, s')) : ∃ y s₁, value s a = .ok (y, s₁) ∧
      (b.fault? = none ∧ s₁ = s' ∨ ∃ z, value s₁ b = .ok (z, s')) := by
  obtain ⟨⟨y, s₁⟩, ha, h⟩ := bind_eq_ok.mp h
  refine ⟨y, s₁, ha, ?_⟩
  dsimp only at h
  split at h
  · obtain ⟨hb, heq⟩ := passOver_eq_ok.mp h
    exact .inl ⟨hb, congrArg Prod.snd heq⟩
  split at h
  · obtain ⟨hb, heq⟩ := passOver_eq_ok.mp h
    exact .inl ⟨hb, congrArg Prod.snd heq⟩
  · obtain ⟨⟨z, s₂⟩, hb, h⟩ := bind_eq_ok.mp h
    obtain ⟨r, -, h⟩ := bind_eq_ok.mp h
    obtain rfl : s₂ = s' := congrArg Prod.snd (Except.ok.inj h)
    exact .inr ⟨z, hb⟩

theorem value_conditional {c yes no : Expression}
    (h : value s (conditional c yes no) = .ok (x, s')) : ∃ y s₁, value s c = .ok (y, s₁) ∧
      (value s₁ yes = .ok (x, s') ∧ no.fault? = none ∨
        yes.fault? = none ∧ value s₁ no = .ok (x, s')) := by
  obtain ⟨⟨y, s₁⟩, hc, h⟩ := bind_eq_ok.mp h
  refine ⟨y, s₁, hc, ?_⟩
  dsimp only at h
  split at h
  · obtain ⟨found, hyes, h⟩ := bind_eq_ok.mp h
    obtain ⟨hno, rfl⟩ := passOver_eq_ok.mp h
    exact .inl ⟨hyes, hno⟩
  · obtain ⟨u, hyes, hno⟩ := bind_eq_ok.mp h
    exact .inr ⟨(passOver_eq_ok.mp hyes).1, hno⟩

theorem value_assign {name : Text} {op : Option BinaryOperator} {e : Expression}
    (h : value s (assign name op e) = .ok (x, s')) : ∃ y s₁, value s e = .ok (y, s₁) ∧
      s' = (name, signedDecimal x.toInt) :: s₁ := by
  obtain ⟨⟨y, s₁⟩, he, h⟩ := bind_eq_ok.mp h
  refine ⟨y, s₁, he, ?_⟩
  cases op with
  | none =>
    obtain ⟨rfl, rfl⟩ := Prod.mk.inj (Except.ok.inj h)
    rfl
  | some op =>
    obtain ⟨old, -, h⟩ := bind_eq_ok.mp h
    obtain ⟨z, -, h⟩ := bind_eq_ok.mp h
    obtain ⟨rfl, rfl⟩ := Prod.mk.inj (Except.ok.inj h)
    rfl

theorem value_broken {e : Expression} {f : ArithmeticFault} :
    value s (broken e f) ≠ .ok (x, s') := by
  intro h
  obtain ⟨found, -, h⟩ := bind_eq_ok.mp h
  cases h

/-! ### Every expression -/

/-- An expression has a value only if all of its text makes sense, the parts that do not count
included. -/
theorem fault?_of_value {e : Expression} (h : e.value s = .ok (x, s')) : e.fault? = none := by
  -- an operand that is not evaluated is looked through for faults all the same
  induction e generalizing s s' x with
  | number i => rfl
  | named name => rfl
  | unary op a ih =>
    obtain ⟨y, ha⟩ := value_unary h
    exact ih ha
  | binary op a b iha ihb =>
    obtain ⟨y, s₁, ha, ⟨hb, -⟩ | ⟨z, hb⟩⟩ := value_binary h
    · rw [fault?, iha ha, hb, Option.or_none]
    · rw [fault?, iha ha, ihb hb, Option.or_none]
  | conditional c yes no ihc ihyes ihno =>
    obtain ⟨y, s₁, hc, ⟨hyes, hno⟩ | ⟨hyes, hno⟩⟩ := value_conditional h
    · rw [fault?, ihc hc, ihyes hyes, hno, Option.or_none, Option.or_none]
    · rw [fault?, ihc hc, hyes, ihno hno, Option.or_none, Option.or_none]
  | assign name op e ih =>
    obtain ⟨y, s₁, he, -⟩ := value_assign h
    exact ih he
  | broken e f ih => exact absurd h value_broken

/-- What has been set stays below what an expression sets. -/
theorem suffix_of_value {e : Expression} (h : e.value s = .ok (x, s')) : s <:+ s' := by
  induction e generalizing s s' x with
  | number i =>
    obtain rfl : s = s' := congrArg Prod.snd (Except.ok.inj h)
    exact List.suffix_refl _
  | named name =>
    obtain ⟨y, -, h⟩ := bind_eq_ok.mp h
    obtain rfl : s = s' := congrArg Prod.snd (Except.ok.inj h)
    exact List.suffix_refl _
  | unary op a ih =>
    obtain ⟨y, ha⟩ := value_unary h
    exact ih ha
  | binary op a b iha ihb =>
    obtain ⟨y, s₁, ha, ⟨-, rfl⟩ | ⟨z, hb⟩⟩ := value_binary h
    · exact iha ha
    · exact (iha ha).trans (ihb hb)
  | conditional c yes no ihc ihyes ihno =>
    obtain ⟨y, s₁, hc, ⟨hyes, -⟩ | ⟨-, hno⟩⟩ := value_conditional h
    · exact (ihc hc).trans (ihyes hyes)
    · exact (ihc hc).trans (ihno hno)
  | assign name op e ih =>
    obtain ⟨y, s₁, he, rfl⟩ := value_assign h
    exact (ih he).trans (List.suffix_cons _ _)
  | broken e f ih => exact absurd h value_broken

/-! ### Variables -/

theorem clampInteger_toInt (i : Int64) : clampInteger i.toInt = i.toInt := by
  have hle := i.le_toInt
  have hlt := i.toInt_lt
  unfold clampInteger leastInteger greatestInteger
  omega

theorem variableValue_signedDecimal (i : Int64) :
    variableValue (signedDecimal i.toInt) = .ok i := by
  have hspace : (signedDecimal i.toInt).all isSpace = false := by
    obtain ⟨d, ds, hd⟩ := List.exists_cons_of_ne_nil (decimal_ne_nil i.toInt.natAbs)
    have hdigit : isSpace d = false :=
      isSpace_of_isDigit (isDigit_of_mem_decimal (n := i.toInt.natAbs) (by simp [hd]))
    unfold signedDecimal
    split <;> simp [hd, hdigit]
  unfold variableValue
  simp [leadingInteger_signedDecimal, hspace, clampInteger_toInt]

/-- A variable is read as the value that it was set to. -/
theorem value_named_of_assign {name : Text} {op : Option BinaryOperator} {e : Expression}
    (h : value s (assign name op e) = .ok (x, s')) : value s' (named name) = .ok (x, s') := by
  obtain ⟨y, s₁, -, rfl⟩ := value_assign h
  refine bind_eq_ok.mpr ⟨x, ?_, rfl⟩
  rw [List.lookup_cons_self]
  exact variableValue_signedDecimal x

end Expression

end Shell

end CliffordT
