import CliffordT.Host.Tool.Names
import Mathlib.Data.List.Basic
import Mathlib.Data.List.TakeWhile

/-!
# Taking names apart

A name is cut before its last part and behind it, where there is nothing but slashes.  There is one
such cut, and `basename` and `dirname` answer by it.

* `Tool.IsCut` : a name is cut around its last part,
* `Tool.exists_isCut` : every name can be cut, unless it is nothing but slashes,
* `Tool.IsCut.lastPart_eq`, `Tool.IsCut.firstParts_eq` : the parts of a name, by any cut of it,
* `Tool.basename_of_isCut`, `Tool.dirname_of_isCut` : what the two tools write.
-/

namespace CliffordT

namespace Tool

open Shell (Text joinLines)

/-- A name is cut around its last part: behind it there are slashes only, and what stands before it
ends with a slash. -/
structure IsCut (t front name slashes : Text) : Prop where
  whole : t = front ++ name ++ slashes
  name_ne_nil : name ≠ []
  slash_not_mem : '/' ∉ name
  slashes : ∀ c ∈ slashes, c = '/'
  front_end : ∀ c ∈ front.getLast?, c = '/'

theorem trimSlashes_append {t slashes : Text} (hs : ∀ c ∈ slashes, c = '/')
    (ht : ∀ c ∈ t.getLast?, c ≠ '/') : trimSlashes (t ++ slashes) = t := by
  have hslashes : ∀ c ∈ slashes.reverse, (c == '/') = true := by
    intro c hc
    rw [hs c (List.mem_reverse.mp hc)]
    rfl
  have hkeep : t.reverse.dropWhile (· == '/') = t.reverse := by
    cases h : t.reverse with
    | nil => rfl
    | cons c cs =>
      have hlast : t.getLast? = some c := by rw [← List.head?_reverse, h]; rfl
      exact List.dropWhile_cons_of_neg (by simpa using ht c hlast)
  rw [trimSlashes, List.reverse_append, List.dropWhile_append_of_pos hslashes, hkeep,
    List.reverse_reverse]

namespace IsCut

variable {t front name slashes : Text} (h : IsCut t front name slashes)
include h

theorem trimSlashes_eq : trimSlashes t = front ++ name := by
  rw [h.whole]
  refine trimSlashes_append h.slashes fun c hc => ?_
  rw [List.getLast?_append_of_ne_nil _ h.name_ne_nil] at hc
  rintro rfl
  exact h.slash_not_mem (List.mem_of_getLast? hc)

theorem not_isSlash : ∀ c ∈ name.reverse, (c != '/') = true := by
  intro c hc
  refine bne_iff_ne.mpr ?_
  rintro rfl
  exact h.slash_not_mem (List.mem_reverse.mp hc)

theorem front_append_name_ne_nil : front ++ name ≠ [] :=
  fun hnil => h.name_ne_nil (List.append_eq_nil_iff.mp hnil).2

/-- The way back through a name stops in front of its last part. -/
theorem reverse_parts : (front ++ name).reverse.takeWhile (· != '/') = name.reverse ∧
    (front ++ name).reverse.dropWhile (· != '/') = front.reverse := by
  rw [List.reverse_append, List.takeWhile_append_of_pos h.not_isSlash,
    List.dropWhile_append_of_pos h.not_isSlash]
  cases hfront : front.reverse with
  | nil => exact ⟨List.append_nil _, rfl⟩
  | cons c cs =>
    obtain rfl : c = '/' := h.front_end c (by rw [← List.head?_reverse, hfront]; rfl)
    exact ⟨List.append_nil _, rfl⟩

/-- The last part of a name, by any cut of it. -/
theorem lastPart_eq : lastPart t = name := by
  unfold lastPart
  rw [h.trimSlashes_eq]
  simp only [List.isEmpty_iff, h.front_append_name_ne_nil, if_false]
  rw [h.reverse_parts.1, List.reverse_reverse]

/-- What stands before the last part, without the slashes at its end: a dot for nothing at all, and
the root for nothing but slashes. -/
theorem firstParts_eq : firstParts t =
    if front = [] then ['.'] else if trimSlashes front = [] then ['/'] else trimSlashes front := by
  have hslash : '/' ∈ front ++ name ↔ front ≠ [] := by
    constructor
    · rintro hmem rfl
      exact h.slash_not_mem hmem
    · intro hfront
      have hlast := List.getLast?_eq_some_getLast hfront
      rw [h.front_end _ hlast] at hlast
      exact List.mem_append_left _ (List.mem_of_getLast? hlast)
  unfold firstParts
  rw [h.trimSlashes_eq]
  simp only [List.isEmpty_iff, h.front_append_name_ne_nil, if_false]
  by_cases hfront : front = []
  · have hnone : (front ++ name).contains '/' = false :=
      Bool.eq_false_iff.mpr fun hmem => hslash.mp (List.contains_iff_mem.mp hmem) hfront
    rw [hnone, if_pos hfront]
    rfl
  · have hmem := hslash.mpr hfront
    rw [h.reverse_parts.2, List.reverse_reverse]
    simp [hfront, hmem]

end IsCut

/-- A text is cut behind the characters at its start that have a property. -/
theorem exists_span (p : Char → Bool) (t : Text) : ∃ front rest, t = front ++ rest ∧
    (∀ c ∈ front, p c = true) ∧ ∀ c ∈ rest.head?, p c = false := by
  refine ⟨t.takeWhile p, t.dropWhile p, List.takeWhile_append_dropWhile.symm,
    fun c hc => List.mem_takeWhile_imp hc, fun c hc => ?_⟩
  have hhead := List.head?_dropWhile_not p t
  rw [hc] at hhead
  simpa using hhead

/-- Every name can be cut, unless it is nothing but slashes. -/
theorem exists_isCut {t : Text} (h : ∃ c ∈ t, c ≠ '/') :
    ∃ front slashes, IsCut t front (lastPart t) slashes := by
  obtain ⟨c, hc, hcslash⟩ := h
  -- from the end: slashes, then what is no slash, then a slash or nothing
  obtain ⟨slashes, body, ht, hslashes, hbody⟩ := exists_span (· == '/') t.reverse
  obtain ⟨name, front, rfl, hname, hfront⟩ := exists_span (· != '/') body
  have hne : name ≠ [] := by
    rintro rfl
    rw [List.nil_append] at ht hbody
    cases front with
    | nil =>
      have hmem : c ∈ slashes := by simpa [ht] using List.mem_reverse.mpr hc
      exact hcslash (beq_iff_eq.mp (hslashes c hmem))
    | cons d front =>
      -- the body would begin with a slash
      have hd : (d != '/') = true := by rw [bne, hbody d rfl]; rfl
      rw [hfront d rfl] at hd
      cases hd
  have hcut : IsCut t front.reverse name.reverse slashes.reverse := by
    refine ⟨?_, by simpa using hne, ?_, ?_, ?_⟩
    · rw [← List.reverse_append, ← List.reverse_append, ← ht, List.reverse_reverse]
    · exact fun hmem => absurd (hname '/' (List.mem_reverse.mp hmem)) (by decide)
    · exact fun d hd => beq_iff_eq.mp (hslashes d (List.mem_reverse.mp hd))
    · intro d hd
      rw [List.getLast?_reverse] at hd
      simpa using hfront d hd
  exact ⟨_, _, hcut.lastPart_eq ▸ hcut⟩

/-- Nothing but slashes is the root, and nothing at all has an empty last part. -/
theorem parts_of_slashes {t : Text} (h : ∀ c ∈ t, c = '/') :
    lastPart t = t.take 1 ∧ firstParts t = if t = [] then ['.'] else ['/'] := by
  have htrim : trimSlashes t = [] := by
    have := trimSlashes_append (t := []) h (by simp)
    rwa [List.nil_append] at this
  unfold lastPart firstParts
  rw [htrim]
  simp [List.isEmpty_iff]

theorem dropSuffix_append {t suffix : Text} (h : t ≠ []) : dropSuffix suffix (t ++ suffix) = t := by
  have hpos := List.length_pos_iff.mpr h
  have hsuffix : suffix.isSuffixOf (t ++ suffix) := by
    rw [List.isSuffixOf_iff_suffix]
    exact List.suffix_append t suffix
  unfold dropSuffix
  rw [if_pos ⟨by rw [List.length_append]; omega, hsuffix⟩]
  simp

section Runs

variable {c : Call} {t front name slashes : Text}

theorem basename_of_isCut (h : IsCut t front name slashes) (hargs : c.args = ["--".toList, t]) :
    basename c = { output := name ++ ['\n'] } := by
  unfold basename
  rw [hargs]
  show ({ output := joinLines [dropSuffix [] (lastPart t)] } : Answer) = _
  rw [h.lastPart_eq]
  have hdrop : dropSuffix [] (name ++ []) = name := dropSuffix_append h.name_ne_nil
  rw [List.append_nil] at hdrop
  simp [hdrop, joinLines]

theorem basename_of_suffix {suffix : Text} (h : IsCut t front (name ++ suffix) slashes)
    (hname : name ≠ []) (hargs : c.args = ["--".toList, t, suffix]) :
    basename c = { output := name ++ ['\n'] } := by
  unfold basename
  rw [hargs]
  show ({ output := joinLines [dropSuffix suffix (lastPart t)] } : Answer) = _
  rw [h.lastPart_eq, dropSuffix_append hname]
  simp [joinLines]

theorem dirname_of_isCut (h : IsCut t front name slashes) (hargs : c.args = ["--".toList, t]) :
    dirname c = { output := (if front = [] then ['.']
      else if trimSlashes front = [] then ['/'] else trimSlashes front) ++ ['\n'] } := by
  unfold dirname withOptions
  rw [hargs]
  show ({ output := joinLines [firstParts t] } : Answer) = _
  rw [h.firstParts_eq]
  simp [joinLines]

end Runs

end Tool

end CliffordT
