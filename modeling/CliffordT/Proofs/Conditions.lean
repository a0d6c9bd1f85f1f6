import CliffordT.Host.Shell.Condition
import CliffordT.Proofs.ShellTexts

/-!
# What conditions mean

`test` reads its words by their number first: one word is a text, two are an operator and what it
is about, three have an operator in the middle.  More words are conditions that `-a` and `-o` join,
of which `-a` binds the tighter; each of them is looked at, whatever the others say.

* `Condition.holds_one`, `holds_unary`, `holds_binary`, `holds_not` : few words,
* `Condition.Primary` : a condition about operands,
* `Condition.holds_words` : what `-a` and `-o` join.
-/

namespace CliffordT

namespace Shell

namespace Condition

variable (s : Surroundings)

/-! ### Conditions about operands -/

/-- A condition about operands. -/
inductive Primary where
  | text (t : Text)
  | unary (op operand : Text)
  | binary (a op b : Text)

namespace Primary

/-- The words of a condition. -/
def words : Primary → List Text
  | text t => [t]
  | unary op t => [op, t]
  | binary a op b => [a, op, b]

/-- The last word of a condition. -/
def last : Primary → Text
  | text t => t
  | unary _ t => t
  | binary _ _ b => b

/-- The role of the first word of a condition. -/
def role : Primary → Role
  | unary .. => .unary
  | _ => .operand

/-- Whether a condition holds. -/
def value : Primary → Except Text Bool
  | text t => .ok !t.isEmpty
  | unary op t => unaryHolds s op t
  | binary a op b => binaryHolds s op a b

/-- A condition whose words cannot be taken for something else. -/
def IsPlain : Primary → Prop
  | text t => operatorRole? t = none
  | unary op t => operatorRole? op = some .unary ∧ operatorRole? t ≠ some .binary
  | binary a op _ => operatorRole? a = none ∧ operatorRole? op = some .binary

variable {p : Primary} {rest : List Text}

theorem roleOf_words (h : p.IsPlain) : roleOf (p.words ++ rest) = p.role := by
  cases p with
  | text t =>
    have ht : operatorRole? t = none := h
    simp [words, roleOf, ht, role]
  | unary op t =>
    obtain ⟨hop, ht⟩ := h
    cases rest with
    | nil => simp [words, roleOf, hop, role]
    | cons next rest => simp [words, roleOf, hop, ht, role]
  | binary a op b =>
    obtain ⟨ha, -⟩ := h
    simp [words, roleOf, ha, role]

theorem roleOf_of_binary {op : Text} (rest : List Text) (h : operatorRole? op = some .binary) :
    roleOf (op :: rest) = .binary := by
  simp [roleOf, h]

/-- A condition is taken off the front of what is left; its last word stays. -/
theorem single_words (h : p.IsPlain) (hrest : roleOf rest ≠ .binary) (n : Nat) :
    single s (n + 1) p.role (p.words ++ rest) =
      (p.value s).map fun a => (a, p.last :: rest) := by
  cases p with
  | text t =>
    cases rest with
    | nil => rfl
    | cons op rest =>
      simp [single, role, words, value, last, hrest, Except.map]
      rfl
  | unary op t =>
    simp only [single, role, words, value, last, List.cons_append, List.nil_append]
    cases unaryHolds s op t <;> rfl
  | binary a op b =>
    have hop := roleOf_of_binary (b :: rest) h.2
    simp only [single, role, words, value, last, List.cons_append, List.nil_append, hop, if_true]
    cases binaryHolds s op a b <;> rfl

theorem notHolds_words (h : p.IsPlain) (hrest : roleOf rest ≠ .binary) (n : Nat) :
    notHolds s (n + 2) p.role (p.words ++ rest) =
      (p.value s).map fun a => (a, p.last :: rest) := by
  have hrole : p.role ≠ .not := by cases p <;> exact Role.noConfusion
  rw [notHolds, if_neg hrole]
  exact single_words s h hrest n

end Primary

/-! ### Conditions that are joined -/

/-- The words of conditions that `-a` joins. -/
def allWords (p : Primary) : List Primary → List Text
  | [] => p.words
  | q :: qs => p.words ++ "-a".toList :: allWords q qs

/-- The last word of conditions that are joined. -/
def lastWord (p : Primary) : List Primary → Text
  | [] => p.last
  | q :: qs => lastWord q qs

/-- Whether all of some conditions hold.  A fault of any of them counts, behind the faults of those
before it. -/
def allValue (p : Primary) : List Primary → Except Text Bool
  | [] => p.value s
  | q :: qs => do
    let a ← p.value s
    let b ← allValue q qs
    return a && b

/-- The words of alternatives that `-o` joins. -/
def anyWords (c : Primary × List Primary) : List (Primary × List Primary) → List Text
  | [] => allWords c.1 c.2
  | d :: ds => allWords c.1 c.2 ++ "-o".toList :: anyWords d ds

/-- Whether one of some alternatives holds. -/
def anyValue (c : Primary × List Primary) : List (Primary × List Primary) → Except Text Bool
  | [] => allValue s c.1 c.2
  | d :: ds => do
    let a ← allValue s c.1 c.2
    let b ← anyValue d ds
    return a || b

variable {p : Primary} {ps : List Primary} {c : Primary × List Primary}
  {cs : List (Primary × List Primary)} {rest : List Text}

theorem exists_words (p : Primary) (ps : List Primary) (rest : List Text) :
    ∃ behind, allWords p ps ++ rest = p.words ++ behind := by
  cases ps with
  | nil => exact ⟨rest, rfl⟩
  | cons q qs => exact ⟨"-a".toList :: allWords q qs ++ rest, by simp [allWords]⟩

theorem roleOf_allWords (h : p.IsPlain) : roleOf (allWords p ps ++ rest) = p.role := by
  obtain ⟨behind, hbehind⟩ := exists_words p ps rest
  rw [hbehind, Primary.roleOf_words h]

theorem roleOf_and (rest : List Text) : roleOf ("-a".toList :: rest) = .and := rfl

theorem roleOf_or (rest : List Text) : roleOf ("-o".toList :: rest) = .or := rfl

/-- What follows the first of some conditions: `-a` and more of them, or something else. -/
theorem allHold_succ (n : Nat) {role : Role} {ws : List Text} {a? : Except Text Bool} {last : Text}
    (h : notHolds s n role ws = a?.map fun a => (a, last :: rest)) :
    allHold s (n + 1) role ws =
      if roleOf rest = .and then do
        let a ← a?
        let (b, ws) ← allHold s n (roleOf (rest.drop 1)) (rest.drop 1)
        return (a && b, ws)
      else a?.map fun a => (a, last :: rest) := by
  rw [allHold, h]
  cases a? with
  | error t => exact (ite_self _).symm
  | ok a => rfl

theorem anyHolds_succ (n : Nat) {role : Role} {ws : List Text} {a? : Except Text Bool} {last : Text}
    (h : allHold s n role ws = a?.map fun a => (a, last :: rest)) :
    anyHolds s (n + 1) role ws =
      if roleOf rest = .or then do
        let a ← a?
        let (b, ws) ← anyHolds s n (roleOf (rest.drop 1)) (rest.drop 1)
        return (a || b, ws)
      else a?.map fun a => (a, last :: rest) := by
  rw [anyHolds, h]
  cases a? with
  | error t => exact (ite_self _).symm
  | ok a => rfl

/-- Conditions that `-a` joins are taken off together.  The induction is on the conditions; the
bound goes down by one with each of them. -/
theorem allHold_words (rest : List Text) (hplain : ∀ q ∈ p :: ps, q.IsPlain)
    (hbinary : roleOf rest ≠ .binary) (hand : roleOf rest ≠ .and) (n : Nat) :
    allHold s (n + ps.length + 3) p.role (allWords p ps ++ rest) =
      (allValue s p ps).map fun a => (a, lastWord p ps :: rest) := by
  induction ps generalizing p with
  | nil =>
    have hp := Primary.notHolds_words s (hplain p List.mem_cons_self) hbinary n
    exact (allHold_succ s (n + 2) hp).trans (if_neg hand)
  | cons q qs ih =>
    obtain ⟨hp, hqs⟩ := List.forall_mem_cons.mp hplain
    have hjoin := roleOf_and (allWords q qs ++ rest)
    have hfirst := Primary.notHolds_words s hp (by rw [hjoin]; decide) (n + (qs.length + 1))
    have hrest := ih hqs
    rw [List.length_cons, allWords, List.append_assoc, List.cons_append,
      allHold_succ s _ hfirst, if_pos hjoin, List.drop_one, List.tail_cons,
      roleOf_allWords (hqs q List.mem_cons_self), ← Nat.add_assoc, hrest, allValue, lastWord]
    cases p.value s with
    | error t => rfl
    | ok a => cases allValue s q qs <;> rfl

/-- The number of conditions that alternatives are made of. -/
def size (c : Primary × List Primary) : List (Primary × List Primary) → Nat
  | [] => c.2.length + 1
  | d :: ds => c.2.length + 1 + size d ds

/-- The last word of alternatives. -/
def lastOf (c : Primary × List Primary) : List (Primary × List Primary) → Text
  | [] => lastWord c.1 c.2
  | d :: ds => lastOf d ds

theorem exists_words_any (c : Primary × List Primary) (cs : List (Primary × List Primary)) :
    ∃ behind, anyWords c cs = c.1.words ++ behind := by
  cases cs with
  | nil =>
    rw [anyWords, ← List.append_nil (allWords c.1 c.2)]
    exact exists_words c.1 c.2 []
  | cons d ds => exact exists_words c.1 c.2 _

theorem roleOf_anyWords (cs : List (Primary × List Primary)) (h : c.1.IsPlain) :
    roleOf (anyWords c cs) = c.1.role := by
  obtain ⟨behind, hbehind⟩ := exists_words_any c cs
  rw [hbehind, Primary.roleOf_words h]

/-- Alternatives that `-o` joins are taken off together. -/
theorem anyHolds_words (hplain : ∀ d ∈ c :: cs, ∀ q ∈ d.1 :: d.2, q.IsPlain) {n : Nat}
    (hn : size c cs + 3 ≤ n) :
    anyHolds s n c.1.role (anyWords c cs) =
      (anyValue s c cs).map fun a => (a, [lastOf c cs]) := by
  obtain ⟨n, rfl⟩ : ∃ m, n = m + 1 := ⟨n - 1, by omega⟩
  induction cs generalizing c n with
  | nil =>
    have hc := hplain c List.mem_cons_self
    obtain ⟨n, rfl⟩ : ∃ m, n = m + c.2.length + 3 :=
      ⟨n - c.2.length - 3, by simp only [size] at hn; omega⟩
    have hall := allHold_words s [] hc (by decide) (by decide) n
    rw [List.append_nil] at hall
    exact (anyHolds_succ s _ hall).trans (if_neg (by decide))
  | cons d ds ih =>
    obtain ⟨hc, hds⟩ := List.forall_mem_cons.mp hplain
    have hjoin := roleOf_or (anyWords d ds)
    have hsize : size c (d :: ds) = c.2.length + 1 + size d ds := rfl
    have hpos : 0 < size d ds := by cases ds <;> simp only [size] <;> omega
    obtain ⟨m, hm⟩ : ∃ m, n = m + c.2.length + 3 := ⟨n - c.2.length - 3, by omega⟩
    have hall := allHold_words s ("-o".toList :: anyWords d ds) hc (by rw [hjoin]; decide)
      (by rw [hjoin]; decide) m
    rw [← hm] at hall
    have hrest := ih hds (n - 1) (by omega)
    rw [Nat.sub_add_cancel (by omega)] at hrest
    rw [anyWords, anyHolds_succ s n hall, if_pos hjoin, List.drop_one, List.tail_cons,
      roleOf_anyWords ds (hds d List.mem_cons_self d.1 List.mem_cons_self), hrest, anyValue, lastOf]
    cases allValue s c.1 c.2 with
    | error t => rfl
    | ok a => cases anyValue s d ds <;> rfl

/-! ### Words by their number -/

/-- One condition about operands is all there is. -/
theorem holdsFrom_of_notHolds {role : Role} {ws : List Text} {a? : Except Text Bool} (last : Text)
    (h : ∀ n, notHolds s (n + 2) role ws = a?.map fun a => (a, [last])) :
    holdsFrom s role ws = a? := by
  have hall := (allHold_succ s _ (h (8 * ws.length + 4))).trans (if_neg (by decide))
  have hany := (anyHolds_succ s _ hall).trans (if_neg (by decide))
  rw [holdsFrom, hany]
  cases a? <;> rfl

theorem operatorRole?_ne_nothing (t : Text) : operatorRole? t ≠ some .nothing := by
  unfold operatorRole?
  dsimp only
  split_ifs <;> simp

theorem roleOf_one (t : Text) :
    roleOf [t] ≠ .nothing ∧ roleOf [t] ≠ .opening ∧ roleOf [t] ≠ .unary := by
  cases h : operatorRole? t with
  | none => simp [roleOf, h]
  | some role =>
    have hrole : role ≠ .nothing := by
      rintro rfl
      exact operatorRole?_ne_nothing t h
    cases role <;> simp_all [roleOf]

/-- One word holds unless it is empty, also if it is an operator. -/
theorem holds_one (t : Text) : holds s [t] = .ok !t.isEmpty := by
  have hshort : holds s [t] = holdsFrom s (roleOf [t]) [t] := rfl
  have hoperand : ∀ n role, role ≠ .nothing → role ≠ .opening → role ≠ .unary → role ≠ .not →
      notHolds s (n + 2) role [t] = .ok (!t.isEmpty, [t]) := by
    intro n role
    cases role <;> simp [notHolds, single, pure, Except.pure]
  obtain ⟨hnothing, hopening, hunary⟩ := roleOf_one t
  rw [hshort]
  refine holdsFrom_of_notHolds s t fun n => ?_
  by_cases hnot : roleOf [t] = .not
  · -- no word is left behind the exclamation mark, and that does not hold
    have hne : t.isEmpty = false := by
      cases t with
      | nil => exact absurd hnot (by decide)
      | cons c t => rfl
    rw [hnot, hne]
    cases n <;> rfl
  · exact hoperand n _ hnothing hopening hunary hnot

theorem holds_unary {op : Text} (h : operatorRole? op = some .unary) (t : Text) :
    holds s [op, t] = unaryHolds s op t := by
  have hrole : roleOf [op, t] = .unary := by simp [roleOf, h]
  have hshort : holds s [op, t] = holdsFrom s (roleOf [op, t]) [op, t] := rfl
  rw [hshort, hrole]
  refine holdsFrom_of_notHolds s t fun n => ?_
  show (unaryHolds s op t >>= fun a => .ok (a, [t])) = _
  cases unaryHolds s op t <;> rfl

/-- An operator in the middle of three words decides, also if the others are operators. -/
theorem holds_binary {op : Text} (h : operatorRole? op = some .binary) (a b : Text) :
    holds s [a, op, b] = binaryHolds s op a b := by
  have hrole := Primary.roleOf_of_binary [b] h
  have hmiddle : holds s [a, op, b] = holdsFrom s .operand [a, op, b] := by
    simp [holds, h]
  rw [hmiddle]
  refine holdsFrom_of_notHolds s b fun n => ?_
  simp only [notHolds, single, hrole, reduceCtorEq, if_false, if_true]
  cases binaryHolds s op a b <;> rfl

/-- An exclamation mark before two or three words turns the answer around, unless it is compared
with something. -/
theorem holds_not {x y : Text} {rest : List Text} (hlength : rest.length ≤ 1)
    (h : rest = [] → operatorRole? x ≠ some .binary) :
    holds s (['!'] :: x :: y :: rest) = (holds s (x :: y :: rest)).map (!·) := by
  cases rest with
  | nil => simp [holds, h rfl]
  | cons z rest =>
    obtain rfl : rest = [] := List.length_eq_zero_iff.mp (by simpa using hlength)
    simp [holds]

theorem length_words (p : Primary) : 0 < p.words.length := by
  cases p <;> simp [Primary.words]

theorem length_allWords (p : Primary) (ps : List Primary) :
    ps.length + 1 ≤ (allWords p ps).length := by
  induction ps generalizing p with
  | nil => exact length_words p
  | cons q qs ih =>
    have hq := ih q
    simp only [allWords, List.length_cons, List.length_append]
    omega

theorem size_le_length (c : Primary × List Primary) (cs : List (Primary × List Primary)) :
    size c cs ≤ (anyWords c cs).length := by
  induction cs generalizing c with
  | nil => exact length_allWords c.1 c.2
  | cons d ds ih =>
    have hd := ih d
    have hc := length_allWords c.1 c.2
    simp only [size, anyWords, List.length_cons, List.length_append]
    omega

theorem ne_of_operatorRole? {word : Text}
    (h : operatorRole? word = none ∨ operatorRole? word = some .unary) :
    word ≠ ['!'] ∧ word ≠ ['('] := by
  constructor <;>
  · rintro rfl
    exact absurd h (by decide)

/-- The first word of a condition about operands turns nothing around, and an operator behind it
makes it an operand. -/
theorem exists_first (h : p.IsPlain) : ∃ word rest, p.words = word :: rest ∧ word ≠ ['!'] ∧
    word ≠ ['('] ∧ ∀ behind : List Text,
      operatorRole? ((rest ++ behind).headD []) = some .binary → p.role = .operand := by
  cases p with
  | text t =>
    obtain ⟨hnot, hopening⟩ := ne_of_operatorRole? (.inl h)
    exact ⟨t, [], rfl, hnot, hopening, fun _ _ => rfl⟩
  | unary op t =>
    obtain ⟨hnot, hopening⟩ := ne_of_operatorRole? (.inr h.1)
    exact ⟨op, [t], rfl, hnot, hopening, fun _ ht => absurd ht h.2⟩
  | binary a op b =>
    obtain ⟨hnot, hopening⟩ := ne_of_operatorRole? (.inl h.1)
    exact ⟨a, [op, b], rfl, hnot, hopening, fun _ _ => rfl⟩

/-- **`-a` binds tighter than `-o`**, and both look at all that they join. -/
theorem holds_words (hplain : ∀ d ∈ c :: cs, ∀ q ∈ d.1 :: d.2, q.IsPlain) :
    holds s (anyWords c cs) = anyValue s c cs := by
  have hfirst := hplain c List.mem_cons_self c.1 List.mem_cons_self
  have hrole := roleOf_anyWords cs hfirst
  have hsize := size_le_length c cs
  have hfrom : holdsFrom s c.1.role (anyWords c cs) = anyValue s c cs := by
    rw [holdsFrom, anyHolds_words s hplain (by omega)]
    cases anyValue s c cs <;> rfl
  obtain ⟨behind, hbehind⟩ := exists_words_any c cs
  obtain ⟨word, rest, hwords, hnot, hopening, hoperand⟩ := exists_first hfirst
  rw [hwords, List.cons_append] at hbehind
  rw [hbehind] at hrole hfrom ⊢
  unfold holds
  dsimp only
  split_ifs with hbinary hparentheses hmark
  · rw [Bool.and_eq_true, beq_iff_eq] at hbinary
    rw [← hoperand behind hbinary.2]
    exact hfrom
  · simp [hopening] at hparentheses
  · simp [hnot] at hmark
  · rw [hrole]
    exact hfrom

/-! ### Comparisons -/

/-- Of these comparisons, each holds where the other one does not, and both have the same fault. -/
theorem binaryHolds_complement (a b : Text) :
    ∀ ops ∈ [("=", "!="), ("-eq", "-ne"), ("-lt", "-ge"), ("-gt", "-le")],
      binaryHolds s ops.2.toList a b = (binaryHolds s ops.1.toList a b).map (!·) := by
  have hcompare : ∀ holds holds' : Int → Int → Bool, (∀ i j, holds' i j = !holds i j) →
      (do return holds' (← integer a) (← integer b)) =
        (do return holds (← integer a) (← integer b) : Except Text Bool).map (!·) := by
    intro holds holds' h
    cases integer a with
    | error t => rfl
    | ok i =>
      cases integer b with
      | error t => rfl
      | ok j => exact congrArg Except.ok (h i j)
  simp only [List.forall_mem_cons]
  refine ⟨rfl, hcompare _ _ fun i j => rfl, hcompare _ _ fun i j => ?_, hcompare _ _ fun i j => ?_,
    by simp⟩
  · rw [← decide_not]
    exact decide_eq_decide.mpr Int.not_lt.symm
  · rw [← decide_not]
    exact decide_eq_decide.mpr Int.not_lt.symm

/-- Integers are compared as integers. -/
theorem holds_lt {i j : Int} (hi : leastInteger ≤ i ∧ i ≤ greatestInteger)
    (hj : leastInteger ≤ j ∧ j ≤ greatestInteger) :
    holds s [signedDecimal i, "-lt".toList, signedDecimal j] = .ok (decide (i < j)) := by
  rw [holds_binary s (by decide)]
  show (do return decide ((← integer (signedDecimal i)) < (← integer (signedDecimal j)))) = _
  simp only [integer, intOf?_signedDecimal hi.1 hi.2, intOf?_signedDecimal hj.1 hj.2]
  rfl

end Condition

end Shell

end CliffordT
