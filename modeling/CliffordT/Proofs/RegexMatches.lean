import CliffordT.Host.Tool.Search

/-!
# What regular expressions match

The engine tries one thing after the other and gives up at a bound.  Here is what it looks for: the
matches of an expression, clause by clause, from a place in a text to a place further on.

* `Regex.Matches` : an expression matches between two places,
* `Regex.meets_of_run` : what the engine finds is a match,
* `Regex.arrives_iff` : where there is a match, the engine finds one, unless its bound is too small,
* `Regex.search_spec` : a search cuts the text around a match.
-/

namespace CliffordT

namespace Tool

open Shell (Text)

namespace Regex

/-- A place in a text: the character before it, the rest of the text, and the groups so far. -/
structure Spot where
  last : Option Char
  rest : Text
  groups : Groups

/-- An expression matches from one place in a text of a given length to another one.  A repeat goes
on beyond its least number only if it gets further. -/
inductive Matches (whole : Nat) : Regex → Spot → Spot → Prop
  | empty (p : Spot) : Matches whole .empty p p
  | any (last : Option Char) (c : Char) (t : Text) (groups : Groups) :
    Matches whole .any ⟨last, c :: t, groups⟩ ⟨some c, t, groups⟩
  | oneOf {isInverted : Bool} {ranges : List (Char × Char)} {c : Char}
    (h : Shell.Glob.inRanges ranges c ≠ isInverted) (last : Option Char) (t : Text)
    (groups : Groups) :
    Matches whole (.oneOf isInverted ranges) ⟨last, c :: t, groups⟩ ⟨some c, t, groups⟩
  | start {p : Spot} (h : p.rest.length = whole) : Matches whole .start p p
  | finish {p : Spot} (h : p.rest = []) : Matches whole .finish p p
  | boundary {isInverted : Bool} {p : Spot}
    (h : (p.last.any Shell.isNameChar != p.rest.head?.any Shell.isNameChar) ≠ isInverted) :
    Matches whole (.boundary isInverted) p p
  | clear {isBehind : Bool} {p : Spot}
    (h : (if isBehind then p.rest.head? else p.last).any Shell.isNameChar = false) :
    Matches whole (.clear isBehind) p p
  | sequence {a b : Regex} {p q r : Spot} (ha : Matches whole a p q) (hb : Matches whole b q r) :
    Matches whole (.sequence a b) p r
  | left {a b : Regex} {p q : Spot} (h : Matches whole a p q) : Matches whole (.either a b) p q
  | right {a b : Regex} {p q : Spot} (h : Matches whole b p q) : Matches whole (.either a b) p q
  | done {least : Nat} {most : Option Nat} {a : Regex} (h : most = some 0 ∨ least = 0) (p : Spot) :
    Matches whole (.repeated least most a) p p
  | once {least : Nat} {most : Option Nat} {a : Regex} {p q r : Spot} (hmost : most ≠ some 0)
    (ha : Matches whole a p q)
    (hr : Matches whole (.repeated least (most.map (· - 1)) a) q r) :
    Matches whole (.repeated (least + 1) most a) p r
  | again {most : Option Nat} {a : Regex} {p q r : Spot} (hmost : most ≠ some 0)
    (ha : Matches whole a p q) (hlt : q.rest.length < p.rest.length)
    (hr : Matches whole (.repeated 0 (most.map (· - 1)) a) q r) :
    Matches whole (.repeated 0 most a) p r
  | group {a : Regex} {p q : Spot} (n : Nat) (h : Matches whole a p q) :
    Matches whole (.group n a) p
      { q with groups := (n, p.rest.take (p.rest.length - q.rest.length)) :: q.groups }
  | reference {n : Nat} {groups : Groups} {old : Text} (h : (groups.lookup n).getD [] = old)
    (last : Option Char) (t : Text) :
    Matches whole (.reference n) ⟨last, old ++ t, groups⟩
      ⟨if old.isEmpty then last else old.getLast?, t, groups⟩

/-- Goals are met one behind the other. -/
inductive Meets (whole : Nat) : List Goal → Spot → Spot → Prop
  | nil (p : Spot) : Meets whole [] p p
  | part {r : Regex} {goals : List Goal} {p q q' : Spot} (h : Matches whole r p q)
    (hs : Meets whole goals q q') : Meets whole (.part r :: goals) p q'
  | close {n : Nat} {before : Text} {goals : List Goal} {p q : Spot}
    (hs : Meets whole goals
      { p with groups := (n, before.take (before.length - p.rest.length)) :: p.groups } q) :
    Meets whole (.close n before :: goals) p q
  | shorter {length : Nat} {goals : List Goal} {p q : Spot} (h : p.rest.length < length)
    (hs : Meets whole goals p q) : Meets whole (.shorter length :: goals) p q

/-! ### What the engine finds -/

theorem longer_cases {x y : Option (Text × Groups)} {found : Text × Groups}
    (h : longer x y = some found) : x = some found ∨ y = some found := by
  unfold longer at h
  split at h
  · split at h
    · exact .inr h
    · exact .inl h
  · exact .inl h
  · exact .inr h

theorem run_repeated_cases {whole n : Nat} {least : Nat} {most : Option Nat} {a : Regex}
    {goals : List Goal} {last : Option Char} {t : Text} {groups : Groups} {found : Text × Groups}
    (h : run whole (n + 1) (.part (.repeated least most a) :: goals) last t groups = some found) :
    ((most = some 0 ∨ least = 0) ∧ run whole n goals last t groups = some found) ∨
      most ≠ some 0 ∧
        ((∃ k, least = k + 1 ∧
          run whole n (.part a :: .part (.repeated k (most.map (· - 1)) a) :: goals) last t groups =
            some found) ∨
        (least = 0 ∧
          run whole n
            (.part a :: .shorter t.length :: .part (.repeated 0 (most.map (· - 1)) a) :: goals)
            last t groups = some found)) := by
  simp only [run] at h
  split at h
  · exact .inl ⟨.inl ‹_›, h⟩
  · rename_i hmost
    split at h
    · obtain ⟨k, rfl⟩ := Nat.exists_eq_succ_of_ne_zero (Nat.ne_of_gt ‹0 < least›)
      exact .inr ⟨hmost, .inl ⟨k, rfl, h⟩⟩
    · obtain rfl : least = 0 := by omega
      split at h
      · rename_i hagain
        exact .inr ⟨hmost, .inr ⟨rfl, hagain.trans h⟩⟩
      · exact .inl ⟨.inr rfl, h⟩

/-- What the engine finds is a match of its goals: the induction is on its bound, and the cases are
those of the first goal. -/
theorem meets_of_run {whole n : Nat} {goals : List Goal} {p : Spot} {t : Text} {groups : Groups}
    (h : run whole n goals p.last p.rest p.groups = some (t, groups)) :
    ∃ last, Meets whole goals p ⟨last, t, groups⟩ := by
  -- the induction is on the bound; each goal leads to goals for which one less is left
  induction n generalizing goals p with
  | zero => cases h
  | succ n ih =>
    obtain ⟨last, rest, old⟩ := p
    cases goals with
    | nil =>
      simp only [run, Option.some.injEq, Prod.mk.injEq] at h
      obtain ⟨rfl, rfl⟩ := h
      exact ⟨last, .nil _⟩
    | cons goal goals =>
      cases goal with
      | shorter length =>
        simp only [run, Option.ite_none_right_eq_some] at h
        obtain ⟨last', hs⟩ := ih (p := ⟨last, rest, old⟩) h.2
        exact ⟨last', .shorter h.1 hs⟩
      | close k before =>
        obtain ⟨last', hs⟩ := ih
          (p := ⟨last, rest, (k, before.take (before.length - rest.length)) :: old⟩) h
        exact ⟨last', .close hs⟩
      | part r =>
        cases r with
        | empty =>
          obtain ⟨last', hs⟩ := ih (p := ⟨last, rest, old⟩) h
          exact ⟨last', .part (.empty _) hs⟩
        | any =>
          cases rest with
          | nil => cases h
          | cons c rest =>
            obtain ⟨last', hs⟩ := ih (p := ⟨some c, rest, old⟩) h
            exact ⟨last', .part (.any ..) hs⟩
        | oneOf isInverted ranges =>
          cases rest with
          | nil => cases h
          | cons c rest =>
            simp only [run, Option.ite_none_right_eq_some, bne_iff_ne] at h
            obtain ⟨last', hs⟩ := ih (p := ⟨some c, rest, old⟩) h.2
            exact ⟨last', .part (.oneOf h.1 ..) hs⟩
        | start =>
          simp only [run, Option.ite_none_right_eq_some] at h
          obtain ⟨last', hs⟩ := ih (p := ⟨last, rest, old⟩) h.2
          exact ⟨last', .part (.start h.1) hs⟩
        | finish =>
          simp only [run, Option.ite_none_right_eq_some, List.isEmpty_iff] at h
          obtain ⟨last', hs⟩ := ih (p := ⟨last, rest, old⟩) h.2
          exact ⟨last', .part (.finish h.1) hs⟩
        | boundary isInverted =>
          simp only [run, Option.ite_none_right_eq_some, bne_iff_ne] at h
          obtain ⟨last', hs⟩ := ih (p := ⟨last, rest, old⟩) h.2
          exact ⟨last', .part (.boundary (by simpa using h.1)) hs⟩
        | clear isBehind =>
          simp only [run, Option.ite_none_left_eq_some, Bool.not_eq_true] at h
          obtain ⟨last', hs⟩ := ih (p := ⟨last, rest, old⟩) h.2
          exact ⟨last', .part (.clear h.1) hs⟩
        | sequence a b =>
          obtain ⟨last', hs⟩ := ih (p := ⟨last, rest, old⟩) h
          cases hs with
          | part ha hs =>
            cases hs with
            | part hb hs => exact ⟨last', .part (.sequence ha hb) hs⟩
        | either a b =>
          rcases longer_cases h with h | h
          · obtain ⟨last', hs⟩ := ih (p := ⟨last, rest, old⟩) h
            cases hs with
            | part ha hs => exact ⟨last', .part (.left ha) hs⟩
          · obtain ⟨last', hs⟩ := ih (p := ⟨last, rest, old⟩) h
            cases hs with
            | part hb hs => exact ⟨last', .part (.right hb) hs⟩
        | repeated least most a =>
          rcases run_repeated_cases h with ⟨hdone, hrun⟩ | ⟨hmost, ⟨k, rfl, hrun⟩ | ⟨rfl, hrun⟩⟩
          · obtain ⟨last', hs⟩ := ih (p := ⟨last, rest, old⟩) hrun
            exact ⟨last', .part (.done hdone _) hs⟩
          · obtain ⟨last', hs⟩ := ih (p := ⟨last, rest, old⟩) hrun
            cases hs with
            | part ha hs =>
              cases hs with
              | part hr hs => exact ⟨last', .part (.once hmost ha hr) hs⟩
          · obtain ⟨last', hs⟩ := ih (p := ⟨last, rest, old⟩) hrun
            cases hs with
            | part ha hs =>
              cases hs with
              | shorter hlt hs =>
                cases hs with
                | part hr hs => exact ⟨last', .part (.again hmost ha hlt hr) hs⟩
        | group k a =>
          obtain ⟨last', hs⟩ := ih (p := ⟨last, rest, old⟩) h
          cases hs with
          | part ha hs =>
            cases hs with
            | close hs => exact ⟨last', .part (.group k ha) hs⟩
        | reference k =>
          simp only [run, Option.ite_none_right_eq_some, List.isPrefixOf_iff_prefix] at h
          obtain ⟨⟨behind, rfl⟩, h⟩ := h
          rw [List.drop_left] at h
          obtain ⟨last', hs⟩ := ih (p := ⟨_, behind, old⟩) h
          exact ⟨last', .part (.reference rfl ..) hs⟩

/-! ### What the engine does not miss -/

theorem isSome_longer_left {x y : Option (Text × Groups)} (h : x.isSome) :
    (longer x y).isSome := by
  obtain ⟨found, rfl⟩ := Option.isSome_iff_exists.mp h
  cases y with
  | none => rfl
  | some other =>
    simp only [longer]
    split <;> rfl

theorem isSome_longer_right {x y : Option (Text × Groups)} (h : y.isSome) :
    (longer x y).isSome := by
  obtain ⟨found, rfl⟩ := Option.isSome_iff_exists.mp h
  cases x with
  | none => rfl
  | some other =>
    simp only [longer]
    split <;> rfl

/-- The engine gets from a place to the end of some goals, at some bound. -/
def Arrives (whole : Nat) (goals : List Goal) (p : Spot) : Prop :=
  ∃ n, (run whole n goals p.last p.rest p.groups).isSome

theorem Arrives.shorter {whole length : Nat} {goals : List Goal} {p : Spot}
    (h : Arrives whole goals p) (hlt : p.rest.length < length) :
    Arrives whole (.shorter length :: goals) p := by
  obtain ⟨n, hn⟩ := h
  refine ⟨n + 1, ?_⟩
  simpa only [run, hlt, if_true] using hn

theorem Arrives.close {whole n : Nat} {before : Text} {goals : List Goal} {p : Spot}
    (h : Arrives whole goals
      { p with groups := (n, before.take (before.length - p.rest.length)) :: p.groups }) :
    Arrives whole (.close n before :: goals) p := by
  obtain ⟨n, hn⟩ := h
  exact ⟨n + 1, hn⟩

/-- Behind a match of an expression, the engine gets as far with the expression as without it: the
induction is on the match. -/
theorem Matches.arrives {whole : Nat} {r : Regex} {p q : Spot} (h : Matches whole r p q)
    {goals : List Goal} (hq : Arrives whole goals q) : Arrives whole (.part r :: goals) p := by
  -- the bound that is enough for the rest grows by one at each step of the match
  induction h generalizing goals with
  | empty p =>
    obtain ⟨n, hn⟩ := hq
    exact ⟨n + 1, hn⟩
  | any last c t groups =>
    obtain ⟨n, hn⟩ := hq
    exact ⟨n + 1, hn⟩
  | oneOf h last t groups =>
    obtain ⟨n, hn⟩ := hq
    refine ⟨n + 1, ?_⟩
    simpa [run, h] using hn
  | start h =>
    obtain ⟨n, hn⟩ := hq
    refine ⟨n + 1, ?_⟩
    simpa [run, h] using hn
  | finish h =>
    obtain ⟨n, hn⟩ := hq
    refine ⟨n + 1, ?_⟩
    simpa [run, h] using hn
  | boundary h =>
    obtain ⟨n, hn⟩ := hq
    refine ⟨n + 1, ?_⟩
    simpa only [run, bne_iff_ne.mpr h, if_true] using hn
  | clear h =>
    obtain ⟨n, hn⟩ := hq
    refine ⟨n + 1, ?_⟩
    simpa only [run, h, Bool.false_eq_true, if_false] using hn
  | sequence ha hb iha ihb =>
    obtain ⟨n, hn⟩ := iha (ihb hq)
    exact ⟨n + 1, hn⟩
  | left h ih =>
    obtain ⟨n, hn⟩ := ih hq
    exact ⟨n + 1, isSome_longer_left hn⟩
  | right h ih =>
    obtain ⟨n, hn⟩ := ih hq
    exact ⟨n + 1, isSome_longer_right hn⟩
  | done h p =>
    obtain ⟨n, hn⟩ := hq
    refine ⟨n + 1, ?_⟩
    simp only [run]
    split
    · exact hn
    · obtain rfl := h.resolve_left ‹_›
      simp only [Nat.lt_irrefl, if_false]
      split
      · rfl
      · exact hn
  | once hmost ha hr iha ihr =>
    obtain ⟨n, hn⟩ := iha (ihr hq)
    refine ⟨n + 1, ?_⟩
    simpa [run, hmost] using hn
  | again hmost ha hlt hr iha ihr =>
    obtain ⟨n, hn⟩ := iha ((ihr hq).shorter hlt)
    obtain ⟨found, hfound⟩ := Option.isSome_iff_exists.mp hn
    refine ⟨n + 1, ?_⟩
    simp [run, hmost, hfound]
  | group k h ih =>
    obtain ⟨n, hn⟩ := ih hq.close
    exact ⟨n + 1, hn⟩
  | reference h last t =>
    obtain ⟨n, hn⟩ := hq
    refine ⟨n + 1, ?_⟩
    simpa [run, h] using hn

theorem Meets.arrives {whole : Nat} {goals : List Goal} {p q : Spot}
    (h : Meets whole goals p q) : Arrives whole goals p := by
  induction h with
  | nil p => exact ⟨1, rfl⟩
  | part h hs ih => exact h.arrives ih
  | close hs ih => exact ih.close
  | shorter h hs ih => exact ih.shorter h

/-- The engine finds a match at some bound if and only if there is one. -/
theorem arrives_iff {whole : Nat} {r : Regex} {p : Spot} :
    Arrives whole [.part r] p ↔ ∃ q, Matches whole r p q := by
  constructor
  · rintro ⟨n, hn⟩
    obtain ⟨⟨t, groups⟩, hrun⟩ := Option.isSome_iff_exists.mp hn
    obtain ⟨last, hs⟩ := meets_of_run hrun
    cases hs with
    | part h hs => exact ⟨_, h⟩
  · rintro ⟨q, h⟩
    exact h.arrives ⟨1, rfl⟩

/-! ### Searches -/

theorem Matches.suffix {whole : Nat} {r : Regex} {p q : Spot} (h : Matches whole r p q) :
    q.rest <:+ p.rest := by
  induction h with
  | sequence ha hb iha ihb => exact ihb.trans iha
  | left h ih => exact ih
  | right h ih => exact ih
  | once hmost ha hr iha ihr => exact ihr.trans iha
  | again hmost ha hlt hr iha ihr => exact ihr.trans iha
  | group n h ih => exact ih
  | reference h last t => exact List.suffix_append _ _
  | any last c t groups => exact List.suffix_cons _ _
  | oneOf h last t groups => exact List.suffix_cons _ _
  | _ => exact List.suffix_refl _

theorem matches_of_matchAt {r : Regex} {whole : Nat} {last : Option Char} {t rest : Text}
    {groups : Groups} (h : matchAt r whole last t = some (rest, groups)) :
    ∃ last', Matches whole r ⟨last, t, []⟩ ⟨last', rest, groups⟩ := by
  obtain ⟨last', hs⟩ := meets_of_run (p := ⟨last, t, []⟩) h
  cases hs with
  | part h hs =>
    cases hs with
    | nil => exact ⟨last', h⟩

/-- The character before a part of a text that starts behind some others. -/
def lastOf (last : Option Char) (before : Text) : Option Char := before.getLast?.or last

theorem lastOf_cons (last : Option Char) (c : Char) (before : Text) :
    lastOf last (c :: before) = lastOf (some c) before := by
  rw [lastOf, lastOf, List.getLast?_cons]
  cases before.getLast? <;> rfl

/-- A search cuts the text around a match, and there is none where it did not stop on its way. -/
theorem searchFrom_spec {r : Regex} {whole : Nat} {last : Option Char} {t : Text} {m : Match}
    (h : searchFrom r whole last t = some m) :
    t = m.before ++ m.text ++ m.behind ∧
      (∃ last', Matches whole r ⟨lastOf last m.before, m.text ++ m.behind, []⟩
        ⟨last', m.behind, m.groups⟩) ∧
      ∀ s u, m.before = s ++ u → u ≠ [] →
        matchAt r whole (lastOf last s) (u ++ m.text ++ m.behind) = none := by
  -- the search goes one character further where no match starts
  induction t generalizing last m with
  | nil =>
    simp only [searchFrom, Option.map_eq_some_iff] at h
    obtain ⟨⟨rest, groups⟩, hat, rfl⟩ := h
    obtain ⟨last', hmatch⟩ := matches_of_matchAt hat
    obtain rfl := List.suffix_nil.mp hmatch.suffix
    refine ⟨rfl, ⟨last', hmatch⟩, fun s u hsu hu => ?_⟩
    exact absurd (List.append_eq_nil_iff.mp hsu.symm).2 hu
  | cons c t ih =>
    unfold searchFrom at h
    split at h
    · rename_i rest groups hat
      obtain rfl := Option.some.inj h
      obtain ⟨last', hmatch⟩ := matches_of_matchAt hat
      have hcut := List.suffix_iff_eq_append.mp hmatch.suffix
      simp only [List.length_cons] at hcut
      refine ⟨hcut.symm, ⟨last', ?_⟩, fun s u hsu hu => ?_⟩
      · rw [hcut]
        exact hmatch
      · exact absurd (List.append_eq_nil_iff.mp hsu.symm).2 hu
    · rename_i hat
      obtain ⟨m', hm', rfl⟩ := Option.map_eq_some_iff.mp h
      obtain ⟨rfl, ⟨last', hmatch⟩, hfirst⟩ := ih hm'
      refine ⟨rfl, ⟨last', ?_⟩, fun s u hsu hu => ?_⟩
      · rw [lastOf_cons]
        exact hmatch
      · -- Either the place is where the search started, or it is behind the first character.
        cases s with
        | nil =>
          obtain rfl := hsu
          exact hat
        | cons d s =>
          obtain ⟨rfl, hbefore⟩ := List.cons.inj hsu
          rw [lastOf_cons]
          exact hfirst s u hbefore hu

theorem search_spec {r : Regex} {t : Text} {m : Match} (h : search r t = some m) :
    t = m.before ++ m.text ++ m.behind ∧
      ∃ last', Matches t.length r ⟨m.before.getLast?, m.text ++ m.behind, []⟩
        ⟨last', m.behind, m.groups⟩ := by
  obtain ⟨hcut, ⟨last', hmatch⟩, -⟩ := searchFrom_spec h
  refine ⟨hcut, last', ?_⟩
  rwa [lastOf, Option.or_none] at hmatch

/-! ### Literal texts -/

theorem matches_exactly_iff {whole : Nat} {c : Char} {p q : Spot} :
    Matches whole (exactly false c) p q ↔
      p.rest = c :: q.rest ∧ q.last = some c ∧ q.groups = p.groups := by
  have hc : ∀ d, Shell.Glob.inRanges [(c, c)] d ≠ false ↔ d = c := by
    intro d
    simp only [Shell.Glob.inRanges, List.any_cons, List.any_nil, Bool.or_false, ne_eq,
      Bool.not_eq_false, Bool.and_eq_true, decide_eq_true_eq]
    constructor
    · rintro ⟨hle, hge⟩
      exact Char.le_antisymm hge hle
    · rintro rfl
      exact ⟨Char.le_refl d, Char.le_refl d⟩
  constructor
  · intro h
    cases h with
    | oneOf h last t groups => exact ⟨by rw [(hc _).mp h], by rw [(hc _).mp h], rfl⟩
  · obtain ⟨last, rest, groups⟩ := p
    obtain ⟨last', rest', groups'⟩ := q
    rintro ⟨hrest, hlast, hgroups⟩
    obtain rfl : rest = c :: rest' := hrest
    obtain rfl : last' = some c := hlast
    obtain rfl : groups' = groups := hgroups
    exact .oneOf ((hc c).mpr rfl) last rest' _

theorem exists_matches_ofLiteral_iff {whole : Nat} {t rest : Text} {p : Spot} :
    (∃ q, Matches whole (ofLiteral false t) p q ∧ q.rest = rest) ↔ p.rest = t ++ rest := by
  induction t generalizing p with
  | nil =>
    constructor
    · rintro ⟨q, ⟨⟩, rfl⟩
      rfl
    · exact fun h => ⟨p, .empty p, h⟩
  | cons c t ih =>
    constructor
    · rintro ⟨q, h, rfl⟩
      cases h with
      | sequence ha hb =>
        rw [(matches_exactly_iff.mp ha).1, ih.mp ⟨q, hb, rfl⟩]
        rfl
    · intro h
      have hc : Matches whole (exactly false c) p ⟨some c, t ++ rest, p.groups⟩ :=
        matches_exactly_iff.mpr ⟨h, rfl, rfl⟩
      obtain ⟨q, hq, hrest⟩ := (ih (p := ⟨some c, t ++ rest, p.groups⟩)).mpr rfl
      exact ⟨q, .sequence hc hq, hrest⟩

end Regex
end Tool
end CliffordT
