import CliffordT.Host.Files

/-!
# The file system

What changes of one place mean for all others, and how paths lead to files.

* `Files.lookup_put`, `Files.lookup_remove` : what stands where after a change,
* `Files.IsTable` : every place has one entry at most,
* `Files.mem_children_iff` : the names in a directory,
* `Files.locate_put` : a file that is put where a path has room is found by that path.
-/

namespace CliffordT

namespace Files

/-! ### Changes -/

theorem lookup_filter (files : Files) (p : Place → Bool) (place : Place) :
    List.lookup place (files.filter fun e => p e.1) =
      if p place then files.lookup place else none := by
  induction files with
  | nil => simp
  | cons e files ih =>
    obtain ⟨other, entry⟩ := e
    by_cases heq : place = other
    · subst heq
      cases hp : p place <;> simp [hp, ih]
    · have hne : (place == other) = false := beq_eq_false_iff_ne.mpr heq
      cases hp : p other <;> simp [hp, hne, List.lookup_cons, ih]

@[simp]
theorem lookup_put (files : Files) (place other : Place) (e : Entry) :
    (files.put place e).lookup other = if other = place then some e else files.lookup other := by
  unfold put
  by_cases h : other = place
  · subst h
    simp
  · have hne : (other == place) = false := beq_eq_false_iff_ne.mpr h
    rw [List.lookup_cons, hne, lookup_filter files (· != place)]
    simp [h]

@[simp]
theorem lookup_remove (files : Files) (place other : Place) :
    (files.remove place).lookup other =
      if place.isPrefixOf other then none else files.lookup other := by
  refine (lookup_filter files (fun p => !place.isPrefixOf p) other).trans ?_
  cases place.isPrefixOf other <;> simp

theorem mem_of_lookup {files : Files} {place : Place} {e : Entry}
    (h : files.lookup place = some e) :
    (place, e) ∈ files := by
  obtain ⟨l₁, l₂, rfl, -⟩ := List.lookup_eq_some_iff.mp h
  simp

/-! ### Tables -/

/-- Every place has one entry at most. -/
def IsTable (files : Files) : Prop := (files.map (·.1)).Nodup

theorem isTable_nil : IsTable [] := List.nodup_nil

theorem IsTable.filter {files : Files} (h : files.IsTable) (p : Place × Entry → Bool) :
    IsTable (files.filter p) :=
  h.sublist (List.filter_sublist.map _)

theorem IsTable.put {files : Files} (h : files.IsTable) (place : Place) (e : Entry) :
    (files.put place e).IsTable := by
  refine List.nodup_cons.mpr ⟨?_, h.filter _⟩
  intro hmem
  obtain ⟨entry, hentry, rfl⟩ := List.mem_map.mp hmem
  simp at hentry

theorem IsTable.remove {files : Files} (h : files.IsTable) (place : Place) :
    (files.remove place).IsTable := h.filter _

theorem IsTable.lookup_eq_some_iff {files : Files} (h : files.IsTable) {place : Place}
    {e : Entry} : files.lookup place = some e ↔ (place, e) ∈ files := by
  induction files with
  | nil => simp
  | cons first files ih =>
    obtain ⟨other, entry⟩ := first
    obtain ⟨hother, hfiles⟩ := List.nodup_cons.mp h
    by_cases heq : place = other
    · subst heq
      -- no second entry of the place stands behind the first
      have hmem : (place, e) ∉ files := fun hmem => hother (List.mem_map.mpr ⟨_, hmem, rfl⟩)
      simp [hmem, eq_comm]
    · have hne : (place == other) = false := beq_eq_false_iff_ne.mpr heq
      simp [List.lookup_cons, hne, heq, ih hfiles]

/-! ### Directories -/

/-- The names in a directory are the last names of the places just below it. -/
theorem mem_children_iff {files : Files} {place : Place} {name : List UInt8} :
    name ∈ files.children place ↔ ∃ e, (place ++ [name], e) ∈ files := by
  simp only [children, List.mem_eraseDups, List.mem_mergeSort, List.mem_filterMap]
  constructor
  · rintro ⟨⟨other, e⟩, hmem, hname⟩
    refine ⟨e, ?_⟩
    rcases List.eq_nil_or_concat other with rfl | ⟨init, last, rfl⟩
    · simp at hname
    · simp only [List.concat_eq_append, List.getLast?_append, List.dropLast_concat] at hname hmem
      by_cases hinit : init = place <;> simp [hinit] at hname
      rwa [← hinit, ← hname]
  · rintro ⟨e, hmem⟩
    exact ⟨_, hmem, by simp⟩

/-! ### Paths -/

/-- Where a name leads to from a directory. -/
def next (place : Place) (c : List UInt8) : Place :=
  if c = [Path.dot, Path.dot] then place.dropLast
  else if c.isEmpty ∨ c = [Path.dot] then place
  else place ++ [c]

theorem follow_cons {files : Files} {place : Place} (h : files.lookup place = some .directory)
    (c : List UInt8) (cs : List (List UInt8)) :
    files.follow place (c :: cs) =
      if 255 < c.length then .error .nameTooLong else files.follow (next place c) cs := by
  simp only [follow, h, next]
  split <;> try rfl
  split <;> try rfl
  split <;> rfl

theorem follow_cons_eq_ok {files : Files} {place : Place} {c : List UInt8}
    {cs : List (List UInt8)} {found : Place × Entry} :
    files.follow place (c :: cs) = .ok found ↔
      files.lookup place = some .directory ∧ c.length ≤ 255 ∧
        files.follow (next place c) cs = .ok found := by
  by_cases hdirectory : files.lookup place = some .directory
  · by_cases hlength : 255 < c.length
    · simp [follow_cons hdirectory, hdirectory, hlength, Nat.not_le.mpr hlength]
    · simp [follow_cons hdirectory, hdirectory, hlength, Nat.not_lt.mp hlength]
  · constructor
    · intro h
      rw [follow] at h
      split at h
      · contradiction
      · cases h
      · cases h
    · exact fun h => absurd h.1 hdirectory

theorem follow_nil_eq_ok {files : Files} {place there : Place} {e : Entry} :
    files.follow place [] = .ok (there, e) ↔ there = place ∧ files.lookup place = some e := by
  rw [follow]
  cases files.lookup place <;> simp [eq_comm]

theorem lookup_of_follow {files : Files} {place there : Place} {cs : List (List UInt8)} {e : Entry}
    (h : files.follow place cs = .ok (there, e)) : files.lookup there = some e := by
  induction cs generalizing place with
  | nil =>
    obtain ⟨rfl, hlookup⟩ := follow_nil_eq_ok.mp h
    exact hlookup
  | cons c cs ih => exact ih (follow_cons_eq_ok.mp h).2.2

theorem follow_append {files : Files} {place there : Place} {cs : List (List UInt8)}
    (h : files.follow place cs = .ok (there, .directory)) (ds : List (List UInt8)) :
    files.follow place (cs ++ ds) = files.follow there ds := by
  induction cs generalizing place with
  | nil =>
    obtain ⟨rfl, -⟩ := follow_nil_eq_ok.mp h
    rfl
  | cons c cs ih =>
    obtain ⟨hplace, hlength, hrest⟩ := follow_cons_eq_ok.mp h
    rw [List.cons_append, follow_cons hplace, if_neg (Nat.not_lt.mpr hlength)]
    exact ih hrest

theorem follow_put {files : Files} {new : Place} (hnew : files.lookup new = none) (e' : Entry)
    {place there : Place} {cs : List (List UInt8)} {e : Entry}
    (h : files.follow place cs = .ok (there, e)) :
    (files.put new e').follow place cs = .ok (there, e) := by
  -- what stood somewhere before still stands there
  have hold : ∀ {other : Place} {e : Entry}, files.lookup other = some e →
      (files.put new e').lookup other = some e := by
    intro other e hother
    have hne : other ≠ new := by
      rintro rfl
      simp [hnew] at hother
    rw [lookup_put, if_neg hne, hother]
  induction cs generalizing place with
  | nil =>
    obtain ⟨rfl, hlookup⟩ := follow_nil_eq_ok.mp h
    exact follow_nil_eq_ok.mpr ⟨rfl, hold hlookup⟩
  | cons c cs ih =>
    obtain ⟨hplace, hlength, hrest⟩ := follow_cons_eq_ok.mp h
    exact follow_cons_eq_ok.mpr ⟨hold hplace, hlength, ih hrest⟩

theorem vacancy_eq_ok {files : Files} {directory place : Place} {p : Path}
    (h : files.vacancy directory p = .ok place) :
    ∃ (cs : List (List UInt8)) (there : Place) (name : List UInt8),
      p.pieces = cs ++ [name] ∧ name ≠ [] ∧ place = there ++ [name] ∧
        files.follow (start directory p) cs = .ok (there, .directory) := by
  unfold vacancy at h
  split at h
  · cases h
  · rename_i name rest hpieces
    by_cases hname : name = []
    · simp [hname] at h
    rw [if_neg (by simpa using hname)] at h
    split at h
    · rename_i there hthere
      refine ⟨rest.reverse, there, name, ?_, hname, (Except.ok.inj h).symm, hthere⟩
      rw [← List.reverse_reverse p.pieces, hpieces, List.reverse_cons]
    · cases h
    · cases h

theorem locate_eq_ok {files : Files} {directory : Place} {p : Path} {found : Place × Entry} :
    files.locate directory p = .ok found ↔
      p.bytes ≠ [] ∧ p.bytes.length < 4096 ∧
        files.follow (start directory p) p.pieces = .ok found := by
  unfold locate
  by_cases hempty : p.bytes = []
  · simp [hempty]
  · by_cases hlength : 4096 ≤ p.bytes.length
    · simp [hempty, hlength, Nat.not_lt.mpr hlength]
    · simp [hempty, hlength, Nat.not_le.mp hlength]

theorem lookup_vacancy {files : Files} {directory there : Place} {p : Path}
    {cs : List (List UInt8)} {name : List UInt8} (hpieces : p.pieces = cs ++ [name])
    (hname : name ≠ []) (hparent : name ≠ [Path.dot, Path.dot])
    (hthere : files.follow (start directory p) cs = .ok (there, .directory))
    (hnone : files.locate directory p = .error .notFound) :
    p.bytes ≠ [] ∧ p.bytes.length < 4096 ∧ name.length ≤ 255 ∧ next there name = there ++ [name] ∧
      files.lookup (there ++ [name]) = none := by
  have hdirectory : files.lookup there = some .directory := lookup_of_follow hthere
  have hbytes : p.bytes ≠ [] := by
    intro hempty
    rw [Path.pieces, hempty] at hpieces
    cases cs with
    | nil => exact hname (List.singleton_inj.mp hpieces).symm
    | cons c cs => simp [Path.split] at hpieces
  have hlength : p.bytes.length < 4096 := by
    by_cases h : 4096 ≤ p.bytes.length
    · simp [locate, hbytes, h, SystemError.nameTooLong, SystemError.notFound] at hnone
    · exact Nat.not_le.mp h
  have hfollow : files.follow there [name] = .error .notFound := by
    rw [← follow_append hthere, ← hpieces]
    simpa [locate, hbytes, Nat.not_le.mpr hlength] using hnone
  -- all names but the last one have led to the directory, so nothing else can have failed
  rw [follow_cons hdirectory] at hfollow
  have hnamed : name.length ≤ 255 := by
    by_cases h : 255 < name.length
    · simp [h, SystemError.nameTooLong, SystemError.notFound] at hfollow
    · exact Nat.not_lt.mp h
  rw [if_neg (Nat.not_lt.mpr hnamed), follow] at hfollow
  have hnone' : files.lookup (next there name) = none := by
    cases hfound : files.lookup (next there name) with
    | none => rfl
    | some e => simp [hfound] at hfollow
  have hnext : next there name = there ++ [name] := by
    by_cases hdot : name = [Path.dot]
    · -- a dot would have led to the directory itself
      simp [next, hdot, hdirectory] at hnone'
    · simp [next, hparent, hname, hdot]
  exact ⟨hbytes, hlength, hnamed, hnext, hnext ▸ hnone'⟩

/-- A file that is put where a path without a file has room for one is found by that path, and
what other paths find stays as it was. -/
theorem locate_put {files : Files} {directory place : Place} {p : Path} (e : Entry)
    (hnone : files.locate directory p = .error .notFound)
    (hroom : files.vacancy directory p = .ok place)
    (hparent : p.pieces.getLast? ≠ some [Path.dot, Path.dot]) :
    (files.put place e).locate directory p = .ok (place, e) ∧
      ∀ {other : Path} {found : Place × Entry}, files.locate directory other = .ok found →
        (files.put place e).locate directory other = .ok found := by
  obtain ⟨cs, there, name, hpieces, hname, rfl, hthere⟩ := vacancy_eq_ok hroom
  have hlast : name ≠ [Path.dot, Path.dot] := by
    rintro rfl
    simp [hpieces] at hparent
  obtain ⟨hbytes, hlength, hnamed, hnext, hvacant⟩ :=
    lookup_vacancy hpieces hname hlast hthere hnone
  have hthere' := follow_put hvacant e hthere
  constructor
  · refine locate_eq_ok.mpr ⟨hbytes, hlength, ?_⟩
    rw [hpieces, follow_append hthere', follow_cons (lookup_of_follow hthere'),
      if_neg (Nat.not_lt.mpr hnamed), hnext]
    exact follow_nil_eq_ok.mpr ⟨rfl, by simp⟩
  · intro other found hfound
    obtain ⟨hbytes, hlength, hfollow⟩ := locate_eq_ok.mp hfound
    exact locate_eq_ok.mpr ⟨hbytes, hlength, follow_put hvacant e hfollow⟩

end Files

end CliffordT
