import CliffordT.Proofs.ConfigDocument

/-!
# Configurations and their changes

A configuration starts as the standard one, from a text or from a file.  Then arguments are added to
it, and the environment may replace its program.

* `Config.NamesProgram` : the values of the environment that count;
* `Config.withOverride_eq` : a value that counts becomes the program as it stands, and no other
  value changes anything;
* `Config.program_changeAll`, `Config.args_changeAll` : the last value that counts is the program,
  and the arguments are added in order;
* `Config.program_ne_nil_changeAll` : a program is never lost;
* `Config.change_history` : **the program is the last value that counts, or the one of the start,
  and never empty.**
-/

namespace CliffordT

namespace Config

/-- A configuration as it starts. -/
inductive IsInitial [Yaml.Reader] : Config → Prop
  | standard : IsInitial standard
  /-- The configuration of a text. -/
  | text {text : String} {c : Config} : ofText text = .ok c → IsInitial c
  /-- The configuration of a file. -/
  | file {contentOf : Path → Except SystemError (List UInt8)} {p : Path} {c : Config} :
    load contentOf p = .ok c → IsInitial c

/-- A change of a configuration. -/
inductive Change where
  /-- One more argument. -/
  | argument (text : String)
  /-- A look at the environment, whose variable has this value at the time, or none. -/
  | override (value : Option (List UInt8))

namespace Change

/-- The argument that a change adds. -/
def argument? : Change → Option String
  | argument text => some text
  | override _ => none

/-- The value of the environment that a change finds. -/
def value? : Change → Option (List UInt8)
  | argument _ => none
  | override value => value

end Change

/-- The configuration after a change. -/
def change (c : Config) : Change → Config
  | .argument text => c.withArg text
  | .override value => c.withOverride value

/-- The configuration after some changes. -/
def changeAll (c : Config) (changes : List Change) : Config := changes.foldl change c

/-- A value that counts: the encoding of a text in which something is not white space. -/
def NamesProgram (value : List UInt8) : Prop :=
  ∃ cs, value = Utf8.encode cs ∧ ∃ x ∈ cs, isBlank x = false

variable {c : Config} {value : List UInt8} {text : String} {changes : List Change} {cs : List Char}

/-! ### Values that count -/

theorem namesProgram_iff_of_encode :
    NamesProgram (Utf8.encode cs) ↔ (trimBlanks cs).isEmpty = false := by
  have hdecode : ∀ ds, Utf8.encode cs = Utf8.encode ds → ds = cs := fun ds h =>
    Except.ok.inj ((Utf8.decode_eq_ok_iff.2 h).symm.trans (Utf8.decode_eq_ok_iff.2 rfl))
  rw [Bool.eq_false_iff, Ne, List.isEmpty_iff, trimBlanks_eq_nil_iff]
  push Not
  constructor
  · rintro ⟨ds, hds, x, hx, hblank⟩
    rw [hdecode ds hds] at hx
    exact ⟨x, hx, by rw [hblank]; exact Bool.false_ne_true⟩
  · rintro ⟨x, hx, hblank⟩
    exact ⟨cs, rfl, x, hx, Bool.eq_false_iff.2 hblank⟩

theorem not_namesProgram_of_error {fault : Utf8.Fault} (h : Utf8.decode value = .error fault) :
    ¬ NamesProgram value := by
  rintro ⟨cs, hcs, -⟩
  rw [Utf8.decode_eq_ok_iff.2 hcs] at h
  cases h

instance (value : List UInt8) : Decidable (NamesProgram value) :=
  match h : Utf8.decode value with
  | .ok cs => decidable_of_iff ((trimBlanks cs).isEmpty = false) <| by
      rw [Utf8.decode_eq_ok_iff.1 h, namesProgram_iff_of_encode]
  | .error _ => isFalse (not_namesProgram_of_error h)

theorem NamesProgram.ne_nil (h : NamesProgram value) : value ≠ [] := by
  obtain ⟨cs, rfl, x, hx, -⟩ := h
  intro hnil
  exact String.utf8EncodeChar_ne_nil (List.flatMap_eq_nil_iff.1 hnil x hx)

theorem withOverride_of_names (h : NamesProgram value) :
    c.withOverride (some value) = { c with program := ⟨value⟩ } := by
  obtain ⟨cs, rfl, -⟩ := id h
  rw [withOverride, Utf8.decode_eq_ok_iff.2 rfl]
  simp [namesProgram_iff_of_encode.1 h]

theorem withOverride_of_not_names (h : ¬ NamesProgram value) : c.withOverride (some value) = c := by
  rw [withOverride]
  cases hdecode : Utf8.decode value with
  | error fault => rfl
  | ok cs =>
    rw [Utf8.decode_eq_ok_iff.1 hdecode, namesProgram_iff_of_encode, Bool.not_eq_false] at h
    simp [h]

/-- A value that counts becomes the program as it stands, and no other value changes anything. -/
theorem withOverride_eq (c : Config) (value? : Option (List UInt8)) :
    c.withOverride value? = ⟨(value?.filter (NamesProgram ·)).elim c.program Path.mk, c.args⟩ := by
  cases value? with
  | none => rfl
  | some value =>
    by_cases h : NamesProgram value
    · rw [withOverride_of_names h, Option.filter_some, if_pos (decide_eq_true h)]
      rfl
    · rw [withOverride_of_not_names h, Option.filter_some, if_neg (mt of_decide_eq_true h)]
      rfl

/-! ### Programs and arguments -/

/-- The last value that counts. -/
def lastProgram? (changes : List Change) : Option (List UInt8) :=
  ((changes.filterMap Change.value?).filter (NamesProgram ·)).getLast?

theorem changeAll_cons (c : Config) (s : Change) (changes : List Change) :
    c.changeAll (s :: changes) = (c.change s).changeAll changes := rfl

theorem lastProgram?_cons (s : Change) (changes : List Change) : lastProgram? (s :: changes) =
    (lastProgram? changes).or (s.value?.filter (NamesProgram ·)) := by
  unfold lastProgram?
  cases hvalue : s.value? with
  | none => rw [List.filterMap_cons_none hvalue, Option.filter_none, Option.or_none]
  | some value =>
    rw [List.filterMap_cons_some hvalue, List.filter_cons, Option.filter_some]
    split_ifs
    · rw [List.getLast?_cons]
      cases ((changes.filterMap Change.value?).filter (NamesProgram ·)).getLast? <;> rfl
    · rw [Option.or_none]

theorem program_change (c : Config) (s : Change) :
    (c.change s).program = (s.value?.filter (NamesProgram ·)).elim c.program Path.mk := by
  cases s with
  | argument text => rfl
  | override value => exact congrArg program (withOverride_eq c value)

/-- The program is the last value that counts, or the one of the start. -/
theorem program_changeAll (c : Config) (changes : List Change) :
    (c.changeAll changes).program = (lastProgram? changes).elim c.program Path.mk := by
  induction changes generalizing c with
  | nil => rfl
  | cons s changes ih =>
    rw [changeAll_cons, ih, program_change, lastProgram?_cons]
    cases lastProgram? changes <;> rfl

theorem args_change (c : Config) (s : Change) :
    (c.change s).args = c.args ++ s.argument?.toList := by
  cases s with
  | argument text => rfl
  | override value => rw [change, withOverride_eq, Change.argument?, Option.toList, List.append_nil]

/-- The arguments are those of the start and then the added ones in order. -/
theorem args_changeAll (c : Config) (changes : List Change) :
    (c.changeAll changes).args = c.args ++ changes.filterMap Change.argument? := by
  induction changes generalizing c with
  | nil => exact (List.append_nil _).symm
  | cons s changes ih =>
    rw [changeAll_cons, ih, args_change, List.append_assoc]
    cases s <;> rfl

/-! ### A program at any time -/

theorem IsInitial.program_ne_nil [Yaml.Reader] (h : c.IsInitial) : c.program.bytes ≠ [] := by
  cases h with
  | standard => decide
  | text h => exact program_ne_nil_of_ofText h
  | file h =>
    obtain ⟨text, htext⟩ := exists_of_load h
    exact program_ne_nil_of_ofText htext

theorem program_ne_nil_change (h : c.program.bytes ≠ []) (s : Change) :
    (c.change s).program.bytes ≠ [] := by
  rw [program_change]
  cases hvalue : s.value?.filter (NamesProgram ·) with
  | none => exact h
  | some value => exact (of_decide_eq_true (Option.filter_eq_some_iff.1 hvalue).2).ne_nil

/-- A program is never lost. -/
theorem program_ne_nil_changeAll (h : c.program.bytes ≠ []) (changes : List Change) :
    (c.changeAll changes).program.bytes ≠ [] := by
  induction changes generalizing c with
  | nil => exact h
  | cons s changes ih => exact ih (program_ne_nil_change h s)

/-! ### Overrides among themselves and with arguments -/

theorem withOverride_idem (c : Config) (value? : Option (List UInt8)) :
    (c.withOverride value?).withOverride value? = c.withOverride value? := by
  rw [withOverride_eq (c.withOverride value?), withOverride_eq c]
  cases value?.filter (NamesProgram ·) <;> rfl

theorem withOverride_withArg (c : Config) (value? : Option (List UInt8)) (text : String) :
    (c.withArg text).withOverride value? = (c.withOverride value?).withArg text := by
  rw [withOverride_eq, withOverride_eq, withArg, withArg]

/-- **A configuration never loses its program.**  However it started, whatever arguments are added
and whatever the variable of the environment holds at each look, the program is the last value of
that variable that counts, byte for byte, or the one of the start; it is never empty.  The arguments
are those of the start and then the added ones in order.  So a second look at the same environment
changes nothing, and it does not matter whether an argument is added before a look or after it. -/
theorem change_history [Yaml.Reader] (h : c.IsInitial) (changes : List Change) :
    (c.changeAll changes).program.bytes ≠ [] ∧
    (c.changeAll changes).program = (lastProgram? changes).elim c.program Path.mk ∧
    (c.changeAll changes).args = c.args ++ changes.filterMap Change.argument? ∧
    ∀ value? text,
      ((c.changeAll changes).withOverride value?).withOverride value? =
        (c.changeAll changes).withOverride value? ∧
      ((c.changeAll changes).withArg text).withOverride value? =
        ((c.changeAll changes).withOverride value?).withArg text :=
  ⟨program_ne_nil_changeAll h.program_ne_nil changes, program_changeAll c changes,
    args_changeAll c changes,
    fun value? text => ⟨withOverride_idem _ value?, withOverride_withArg _ value? text⟩⟩

/-- Two arguments, and looks at an environment that holds a path with white space around it,
nothing, a byte that is no text, and an em space. -/
def sampleChanges : List Change :=
  [.argument "-d", .override (some [0x20, 0x2f, 0x74, 0x20]), .override none,
    .override (some [0xff]), .argument "9", .override (some [0xe2, 0x80, 0x83])]

/-- Of the values that the environment holds in turn only the first one counts, which is not
trimmed. -/
theorem change_history_padded_value :
    load (fun _ => .ok (Utf8.encode "program: /s".toList)) (.ofString "o") =
      .ok ⟨.ofString "/s", []⟩ ∧
    (changeAll ⟨.ofString "/s", []⟩ sampleChanges).program = .ofString " /t " ∧
    (changeAll ⟨.ofString "/s", []⟩ sampleChanges).args = ["-d", "9"] := by
  have hload : load (fun _ => .ok (Utf8.encode "program: /s".toList)) (.ofString "o") =
      .ok ⟨.ofString "/s", []⟩ := by decide +kernel
  obtain ⟨-, hprogram, hargs, -⟩ := change_history (.file hload) sampleChanges
  have hlast : lastProgram? sampleChanges = some (Path.ofString " /t ").bytes := by decide +kernel
  rw [hlast] at hprogram
  exact ⟨hload, hprogram, hargs⟩

end Config

end CliffordT
