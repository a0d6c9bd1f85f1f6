import CliffordT.Host.Shell.Glob

/-!
# What patterns match

The texts of the form of a pattern, element by element, and what the matcher and the two ways of
trimming do with them.

* `Glob.Matches` : a text has the form of a pattern,
* `Glob.fits_iff` : the matcher decides it,
* `Glob.fits_plain_iff` : characters that are quoted, or not special, match themselves only,
* `Glob.trimStart_cases`, `Glob.trimEnd_cases` : trimming takes the shortest or the longest part of
  the form of the pattern, or nothing where there is none.
-/

namespace CliffordT

namespace Shell

/-- A character that stands for itself in a pattern: it is quoted, or has no meaning of its own. -/
def Marked.isPlain (m : Marked) : Bool :=
  m.isQuoted || !(['*', '?', '\\', '['].contains m.char)

theorem Marked.not_isBare {m : Marked} (h : m.isPlain) {c : Char}
    (hc : c ∈ ['*', '?', '\\', '[']) : m.isBare c = false := by
  simp only [isPlain, isBare] at h ⊢
  cases hq : m.isQuoted with
  | true => rfl
  | false =>
    simp only [hq, Bool.false_or, Bool.not_eq_true', Bool.not_false, Bool.true_and] at h ⊢
    rw [beq_eq_false_iff_ne]
    rintro rfl
    rw [List.contains_iff_mem.mpr hc] at h
    cases h

namespace Glob

/-- A text has the form of a pattern. -/
inductive Matches : List Glob → Text → Prop
  | nil : Matches [] []
  | star (s : Text) {gs : List Glob} {t : Text} (h : Matches gs t) : Matches (.star :: gs) (s ++ t)
  | any (c : Char) {gs : List Glob} {t : Text} (h : Matches gs t) : Matches (.any :: gs) (c :: t)
  | oneOf {isInverted : Bool} {ranges : List (Char × Char)} {c : Char}
    (hc : inRanges ranges c ≠ isInverted) {gs : List Glob} {t : Text} (h : Matches gs t) :
    Matches (.oneOf isInverted ranges :: gs) (c :: t)
  | exactly (c : Char) {gs : List Glob} {t : Text} (h : Matches gs t) :
    Matches (.exactly c :: gs) (c :: t)

section Steps

variable {gs : List Glob} {c : Char} {t : Text}

@[simp] theorem matches_nil_iff : Matches [] t ↔ t = [] := by
  constructor
  · rintro ⟨⟩
    rfl
  · rintro rfl
    exact .nil

@[simp] theorem matches_star_nil : Matches (.star :: gs) [] ↔ Matches gs [] := by
  constructor
  · intro h
    generalize ht : ([] : Text) = t at h
    cases h with
    | star s h =>
      obtain ⟨rfl, rfl⟩ := List.append_eq_nil_iff.mp ht.symm
      exact h
  · exact .star []

@[simp] theorem matches_star_cons :
    Matches (.star :: gs) (c :: t) ↔ Matches gs (c :: t) ∨ Matches (.star :: gs) t := by
  constructor
  · intro h
    generalize hu : c :: t = u at h
    cases h with
    | star s h =>
      cases s with
      | nil =>
        subst hu
        exact .inl h
      | cons d s =>
        obtain ⟨rfl, rfl⟩ := List.cons.inj hu
        exact .inr (.star s h)
  · rintro (h | h)
    · exact .star [] h
    · cases h with
      | star s h => exact .star (c :: s) h

@[simp] theorem matches_any_cons : Matches (.any :: gs) (c :: t) ↔ Matches gs t := by
  constructor
  · rintro ⟨⟩
    assumption
  · exact .any c

@[simp] theorem matches_oneOf_cons {isInverted : Bool} {ranges : List (Char × Char)} :
    Matches (.oneOf isInverted ranges :: gs) (c :: t) ↔
      inRanges ranges c ≠ isInverted ∧ Matches gs t := by
  constructor
  · rintro ⟨⟩
    exact ⟨‹_›, ‹_›⟩
  · rintro ⟨hc, h⟩
    exact .oneOf hc h

@[simp] theorem matches_exactly_cons {e : Char} :
    Matches (.exactly e :: gs) (c :: t) ↔ e = c ∧ Matches gs t := by
  constructor
  · rintro ⟨⟩
    exact ⟨rfl, ‹_›⟩
  · rintro ⟨rfl, h⟩
    exact .exactly e h

theorem star_of_matches_nil {g : Glob} (h : Matches (g :: gs) []) : g = .star := by
  generalize ht : ([] : Text) = t at h
  cases h with
  | star s h => rfl
  | _ => cases ht

end Steps

/-- The matcher decides whether a text has the form of a pattern: the induction is on the steps that
it takes. -/
theorem fits_iff (gs : List Glob) (t : Text) : fits gs t = true ↔ Matches gs t := by
  fun_induction fits gs t with
  | case7 g gs hg =>
    simp only [Bool.false_eq_true, false_iff]
    intro h
    exact hg (star_of_matches_nil h)
  | _ => simp [*]

instance (gs : List Glob) (t : Text) : Decidable (Matches gs t) :=
  decidable_of_iff _ (fits_iff gs t)

/-! ### Patterns in a row -/

theorem matches_append_iff {gs hs : List Glob} {t : Text} :
    Matches (gs ++ hs) t ↔ ∃ s u, t = s ++ u ∧ Matches gs s ∧ Matches hs u := by
  constructor
  · intro h
    induction gs generalizing t with
    | nil => exact ⟨[], t, rfl, .nil, h⟩
    | cons g gs ih =>
      cases h with
      | star s h =>
        obtain ⟨s', u, rfl, hs, hu⟩ := ih h
        exact ⟨s ++ s', u, (List.append_assoc ..).symm, .star s hs, hu⟩
      | any c h =>
        obtain ⟨s, u, rfl, hs, hu⟩ := ih h
        exact ⟨c :: s, u, rfl, .any c hs, hu⟩
      | oneOf hc h =>
        obtain ⟨s, u, rfl, hs, hu⟩ := ih h
        exact ⟨_ :: s, u, rfl, .oneOf hc hs, hu⟩
      | exactly c h =>
        obtain ⟨s, u, rfl, hs, hu⟩ := ih h
        exact ⟨c :: s, u, rfl, .exactly c hs, hu⟩
  · rintro ⟨s, u, rfl, hs, hu⟩
    induction hs with
    | nil => exact hu
    | star s h ih =>
      rw [List.append_assoc]
      exact .star s ih
    | any c h ih => exact .any c ih
    | oneOf hc h ih => exact .oneOf hc ih
    | exactly c h ih => exact .exactly c ih

/-! ### Characters that stand for themselves -/

theorem matches_map_exactly_iff {t u : Text} : Matches (t.map .exactly) u ↔ u = t := by
  induction t generalizing u with
  | nil => exact matches_nil_iff
  | cons c t ih =>
    cases u with
    | nil =>
      simp only [List.map_cons, List.nil_eq, List.cons_ne_nil, iff_false]
      intro h
      cases star_of_matches_nil h
    | cons d u => simp [ih, eq_comm]

theorem ofMarkedWithin_plain {n : Nat} {ms : List Marked} (hn : ms.length ≤ n)
    (h : ∀ m ∈ ms, m.isPlain) : ofMarkedWithin n ms = ms.map fun m => .exactly m.char := by
  induction ms generalizing n with
  | nil => cases n <;> rfl
  | cons m ms ih =>
    cases n with
    | zero => cases hn
    | succ n =>
      have hm := h m List.mem_cons_self
      have hms := ih (Nat.le_of_succ_le_succ hn) fun m hm => h m (List.mem_cons_of_mem _ hm)
      simp [ofMarkedWithin, Marked.not_isBare hm, hms]

/-- Characters that stand for themselves match their own text and nothing else. -/
theorem fits_plain_iff {ms : List Marked} (h : ∀ m ∈ ms, m.isPlain) (t : Text) :
    fits (ofMarked ms) t = true ↔ t = ms.map (·.char) := by
  rw [fits_iff, ofMarked, ofMarkedWithin_plain (Nat.le_refl _) h, ← matches_map_exactly_iff,
    List.map_map]
  rfl

/-! ### Trimming -/

theorem first_of_find? {α : Type} {R : α → α → Prop} {p : α → Bool} {xs : List α} {x : α}
    (hxs : xs.Pairwise R) (h : xs.find? p = some x) :
    x ∈ xs ∧ p x = true ∧ ∀ y ∈ xs, p y = true → y = x ∨ R x y := by
  obtain ⟨hx, before, behind, rfl, hbefore⟩ := List.find?_eq_some_iff_append.mp h
  refine ⟨by simp, hx, fun y hy hpy => ?_⟩
  rcases List.mem_append.mp hy with hy | hy
  · exact absurd hpy (by simpa using hbefore y hy)
  · rcases List.mem_cons.mp hy with rfl | hy
    · exact .inl rfl
    · exact .inr (List.rel_of_pairwise_cons (List.pairwise_append.mp hxs).2.1 hy)

theorem mem_lengths {longest : Bool} {t : Text} {k : Nat} :
    k ∈ lengths longest t ↔ k ≤ t.length := by
  have hrange : k ∈ List.range (t.length + 1) ↔ k ≤ t.length :=
    List.mem_range.trans Nat.lt_succ_iff
  cases longest with
  | true => exact List.mem_reverse.trans hrange
  | false => exact hrange

/-- A length that comes first, where the longest or the shortest one does. -/
def IsFirst (longest : Bool) (j k : Nat) : Prop := if longest then k ≤ j else j ≤ k

theorem pairwise_lengths (longest : Bool) (t : Text) :
    (lengths longest t).Pairwise (IsFirst longest) := by
  have h : (List.range (t.length + 1)).Pairwise (· ≤ ·) :=
    List.pairwise_lt_range.imp fun hlt => Nat.le_of_lt hlt
  cases longest with
  | false => exact h
  | true => exact List.pairwise_reverse.mpr h

theorem isFirst_refl (longest : Bool) (k : Nat) : IsFirst longest k k := by
  cases longest <;> exact Nat.le_refl k

/-- A text loses its shortest or its longest start of the form of a pattern, or nothing if no start
of it has that form. -/
theorem trimStart_cases (longest : Bool) (gs : List Glob) (t : Text) :
    (trimStart longest gs t = t ∧ ∀ s, s <+: t → ¬Matches gs s) ∨
      ∃ s, t = s ++ trimStart longest gs t ∧ Matches gs s ∧
        ∀ s', s' <+: t → Matches gs s' → IsFirst longest s.length s'.length := by
  unfold trimStart
  cases h : (lengths longest t).find? fun k => fits gs (t.take k) with
  | none =>
    refine .inl ⟨rfl, fun s hs hm => ?_⟩
    rw [List.prefix_iff_eq_take.mp hs] at hm
    exact List.find?_eq_none.mp h s.length (mem_lengths.mpr hs.length_le) ((fits_iff ..).mpr hm)
  | some k =>
    -- the lengths are tried in order, so the first one that fits is the one to take
    obtain ⟨hk, hfits, hfirst⟩ := first_of_find? (pairwise_lengths longest t) h
    have hlength : (t.take k).length = k := List.length_take_of_le (mem_lengths.mp hk)
    refine .inr ⟨t.take k, (List.take_append_drop k t).symm, (fits_iff ..).mp hfits, ?_⟩
    intro s' hs' hm
    rw [hlength]
    rw [List.prefix_iff_eq_take.mp hs'] at hm
    rcases hfirst _ (mem_lengths.mpr hs'.length_le) ((fits_iff ..).mpr hm) with heq | hlt
    · rw [heq]
      exact isFirst_refl ..
    · exact hlt

/-- A text loses its shortest or its longest end of the form of a pattern, or nothing if no end of
it has that form. -/
theorem trimEnd_cases (longest : Bool) (gs : List Glob) (t : Text) :
    (trimEnd longest gs t = t ∧ ∀ s, s <:+ t → ¬Matches gs s) ∨
      ∃ s, t = trimEnd longest gs t ++ s ∧ Matches gs s ∧
        ∀ s', s' <:+ t → Matches gs s' → IsFirst longest s.length s'.length := by
  unfold trimEnd
  cases h : (lengths (!longest) t).find? fun k => fits gs (t.drop k) with
  | none =>
    refine .inl ⟨rfl, fun s hs hm => ?_⟩
    rw [List.suffix_iff_eq_drop.mp hs] at hm
    exact List.find?_eq_none.mp h _ (mem_lengths.mpr (Nat.sub_le ..)) ((fits_iff ..).mpr hm)
  | some k =>
    obtain ⟨hk, hfits, hfirst⟩ := first_of_find? (pairwise_lengths (!longest) t) h
    refine .inr ⟨t.drop k, (List.take_append_drop k t).symm, (fits_iff ..).mp hfits, ?_⟩
    intro s' hs' hm
    rw [List.length_drop]
    rw [List.suffix_iff_eq_drop.mp hs'] at hm
    have hle := hs'.length_le
    rcases hfirst _ (mem_lengths.mpr (Nat.sub_le ..)) ((fits_iff ..).mpr hm) with heq | hlt
    · have hs : t.length - k = s'.length := by omega
      rw [hs]
      exact isFirst_refl ..
    · cases longest <;> simp [IsFirst] at hlt ⊢ <;> omega

end Glob
end Shell
end CliffordT
