/-!
# White space

The characters with the Unicode property `White_Space`, and texts freed of them at both ends.

* `isTrimmed_iff` : there is one text without white space at its ends, around which nothing else is
  left out;
* `trimBlanks_eq_nil_iff` : nothing is left of a text that is all white space.
-/

namespace CliffordT

/-- The inclusive ranges of the white space characters, ascending. -/
def blankRanges : List (Nat × Nat) :=
  [(0x9, 0xd), (0x20, 0x20), (0x85, 0x85), (0xa0, 0xa0), (0x1680, 0x1680), (0x2000, 0x200a),
   (0x2028, 0x2029), (0x202f, 0x202f), (0x205f, 0x205f), (0x3000, 0x3000)]

/-- White space in the sense of Unicode. -/
def isBlank (c : Char) : Bool :=
  blankRanges.any fun r => decide (r.1 ≤ c.toNat) && decide (c.toNat ≤ r.2)

/-- The text without the white space at its two ends. -/
def trimBlanks (cs : List Char) : List Char :=
  ((cs.dropWhile isBlank).reverse.dropWhile isBlank).reverse

/-! ### What is left -/

/-- The text `mid` does not begin or end with white space, and nothing but white space stands
around it in `cs`. -/
def IsTrimmed (cs mid : List Char) : Prop :=
  ∃ front back, cs = front ++ mid ++ back ∧ (∀ c ∈ front ++ back, isBlank c) ∧
    (∀ c ∈ mid.head?, isBlank c = false) ∧ ∀ c ∈ mid.getLast?, isBlank c = false

theorem isBlank_head_dropWhile (cs : List Char) :
    ∀ c ∈ (cs.dropWhile isBlank).head?, isBlank c = false := by
  intro c hc
  have h := List.head?_dropWhile_not isBlank cs
  rw [Option.mem_def.1 hc] at h
  exact h

theorem isBlank_of_mem_takeWhile {cs : List Char} {c : Char} (h : c ∈ cs.takeWhile isBlank) :
    isBlank c :=
  List.all_eq_true.1 List.all_takeWhile c h

theorem isTrimmed_trimBlanks (cs : List Char) : IsTrimmed cs (trimBlanks cs) := by
  generalize hrest : cs.dropWhile isBlank = rest
  generalize hback : (rest.reverse.takeWhile isBlank).reverse = back
  have hmid : trimBlanks cs ++ back = rest := by
    rw [trimBlanks, hrest, ← hback, ← List.reverse_append, List.takeWhile_append_dropWhile,
      List.reverse_reverse]
  refine ⟨cs.takeWhile isBlank, back, ?_, ?_, ?_, ?_⟩
  · rw [List.append_assoc, hmid, ← hrest, List.takeWhile_append_dropWhile]
  · rintro c hc
    rcases List.mem_append.1 hc with hc | hc
    · exact isBlank_of_mem_takeWhile hc
    · rw [← hback] at hc
      exact isBlank_of_mem_takeWhile (List.mem_reverse.1 hc)
  · intro c hc
    apply isBlank_head_dropWhile cs
    rw [hrest, ← hmid, List.head?_append, Option.mem_def.1 hc]
    rfl
  · intro c hc
    rw [trimBlanks, List.getLast?_reverse] at hc
    exact isBlank_head_dropWhile _ c hc

theorem dropWhile_isBlank_append {front cs : List Char} (hfront : ∀ c ∈ front, isBlank c)
    (hcs : ∀ c ∈ cs.head?, isBlank c = false) : (front ++ cs).dropWhile isBlank = cs := by
  rw [List.dropWhile_append_of_pos hfront]
  cases cs with
  | nil => rfl
  | cons c cs => rw [List.dropWhile_cons_of_neg (by simpa using hcs c rfl)]

/-- There is one trimmed text. -/
theorem isTrimmed_iff {cs mid : List Char} : IsTrimmed cs mid ↔ mid = trimBlanks cs := by
  constructor
  · rintro ⟨front, back, rfl, hblank, hhead, hlast⟩
    have hfront : ∀ c ∈ front, isBlank c := fun c hc => hblank c (List.mem_append_left _ hc)
    have hback : ∀ c ∈ back.reverse, isBlank c := fun c hc =>
      hblank c (List.mem_append_right _ (List.mem_reverse.1 hc))
    cases mid with
    | nil =>
      have hall : (front ++ back ++ []).dropWhile isBlank = [] :=
        dropWhile_isBlank_append hblank (by simp)
      rw [List.append_nil] at hall
      rw [trimBlanks, List.append_nil, hall]
      rfl
    | cons c mid =>
      rw [trimBlanks, List.append_assoc, dropWhile_isBlank_append hfront (by simpa using hhead),
        List.reverse_append, dropWhile_isBlank_append hback, List.reverse_reverse]
      rwa [List.head?_reverse]
  · rintro rfl
    exact isTrimmed_trimBlanks cs

/-- Nothing is left of a text that is all white space. -/
theorem trimBlanks_eq_nil_iff {cs : List Char} : trimBlanks cs = [] ↔ ∀ c ∈ cs, isBlank c := by
  rw [eq_comm, ← isTrimmed_iff]
  constructor
  · rintro ⟨front, back, rfl, hblank, -⟩
    rwa [List.append_nil]
  · intro h
    exact ⟨cs, [], by simp, by simpa using h, by simp, by simp⟩

end CliffordT
