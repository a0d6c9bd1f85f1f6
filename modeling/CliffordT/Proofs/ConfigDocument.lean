import CliffordT.Config.Document
import CliffordT.Proofs.Utf8
import Mathlib.Data.List.Forall2
import Mathlib.Tactic.MkIffOfInductiveProp

/-!
# Configurations in documents

A configuration is read from a document entry by entry, and each of its two fields is kept where its
key stands.  What a document says about the fields is stated here without the order of that reading.

* `Yaml.Document.Fills` : what the entries of a mapping say about the two fields;
* `Yaml.Document.fills_cons_program`, `.fills_cons_args`, `.fills_cons_other` : what one more entry
  adds to it;
* `Yaml.Document.Fills.of_perm`, `.fills_insert_other` : neither the order of the entries nor an
  entry with another key matters;
* `Config.readEntries_eq_ok_iff` : the entries are read if and only if they fill fields that are not
  yet known;
* `Config.ofText_eq_ok_iff` : the same for a text and its document;
* `Config.document_gives_config` : **a document is read as its values, or the defaults, and refused
  exactly if its program is empty.**
-/

namespace CliffordT

namespace Yaml

namespace Document

/-- The text of a scalar of any style and tag, or of one that is referred to. -/
def text? (d : Document) (node : Node) : Option String :=
  match d.resolve node with
  | .scalar text _ _ => some text
  | _ => none

/-- The node is a sequence of scalars with these texts; a blank node is an empty sequence. -/
inductive HoldsTexts (d : Document) (node : Node) : List String → Prop
  | sequence {items : List Node} {texts : List String} : d.resolve node = .sequence items →
    List.Forall₂ (fun item text => d.text? item = some text) items texts → HoldsTexts d node texts
  | blank {tag : Option TagBytes} : d.resolve node = .scalar "" .plain tag → HoldsTexts d node []

/-- The document is a mapping with these entries; an empty document has none. -/
inductive HasEntries (d : Document) : List (Node × Node) → Prop
  | nothing : d.root = none → HasEntries d []
  | blank {root : Node} {tag : Option TagBytes} : d.root = some root →
    d.resolve root = .scalar "" .plain tag → HasEntries d []
  | mapping {root : Node} {entries : List (Node × Node)} : d.root = some root →
    d.resolve root = .mapping entries → HasEntries d entries

/-- The values behind a key, in the order of the entries. -/
def valuesBehind (d : Document) (name : String) (entries : List (Node × Node)) : List Node :=
  (entries.filter fun e => d.text? e.1 = some name).map Prod.snd

/-- The keys of the entries are scalars, of which one at most is `program`, with a text behind it,
and one at most is `args`, with a list of texts. -/
@[mk_iff]
structure Fills (d : Document) (entries : List (Node × Node)) (program? : Option String)
    (args? : Option (List String)) : Prop where
  keys : ∀ e ∈ entries, (d.text? e.1).isSome
  program : List.Forall₂ (fun node text => d.text? node = some text)
    (d.valuesBehind "program" entries) program?.toList
  args : List.Forall₂ d.HoldsTexts (d.valuesBehind "args" entries) args?.toList

variable {d : Document} {key value : Node} {entries : List (Node × Node)} {name other : String}
  {program? : Option String} {args? : Option (List String)}

/-! ### Entries -/

theorem valuesBehind_cons_self (hkey : d.text? key = some name) :
    d.valuesBehind name ((key, value) :: entries) = value :: d.valuesBehind name entries := by
  simp [valuesBehind, hkey]

theorem valuesBehind_cons_of_ne (hkey : d.text? key = some name) (h : name ≠ other) :
    d.valuesBehind other ((key, value) :: entries) = d.valuesBehind other entries := by
  simp [valuesBehind, hkey, h]

theorem fills_nil : d.Fills [] program? args? ↔ program? = none ∧ args? = none := by
  constructor
  · rintro ⟨-, hprogram, hargs⟩
    cases program? with
    | some text => cases hprogram
    | none =>
      cases args? with
      | some texts => cases hargs
      | none => exact ⟨rfl, rfl⟩
  · rintro ⟨rfl, rfl⟩
    exact ⟨by simp, .nil, .nil⟩

theorem keys_cons_iff (hkey : d.text? key = some name) :
    (∀ e ∈ (key, value) :: entries, (d.text? e.1).isSome) ↔
      ∀ e ∈ entries, (d.text? e.1).isSome := by
  rw [List.forall_mem_cons, hkey]
  exact and_iff_right rfl

theorem forall₂_cons_toList_iff {α : Type} {R : Node → α → Prop} {node : Node} {nodes : List Node}
    {a? : Option α} : List.Forall₂ R (node :: nodes) a?.toList ↔
      ∃ a, a? = some a ∧ R node a ∧ List.Forall₂ R nodes (none : Option α).toList := by
  cases a? with
  | none => simp
  | some a => simp [List.forall₂_cons]

/-- The program is the value behind its only key. -/
theorem fills_cons_program (hkey : d.text? key = some "program") :
    d.Fills ((key, value) :: entries) program? args? ↔
      ∃ text, program? = some text ∧ d.text? value = some text ∧ d.Fills entries none args? := by
  have hne : "program" ≠ "args" := by decide
  simp only [fills_iff, keys_cons_iff hkey, valuesBehind_cons_self hkey,
    valuesBehind_cons_of_ne hkey hne, forall₂_cons_toList_iff]
  constructor
  · rintro ⟨hkeys, ⟨text, rfl, hvalue, hrest⟩, hargs⟩
    exact ⟨text, rfl, hvalue, hkeys, hrest, hargs⟩
  · rintro ⟨text, rfl, hvalue, hkeys, hrest, hargs⟩
    exact ⟨hkeys, ⟨text, rfl, hvalue, hrest⟩, hargs⟩

/-- The arguments are the value behind their only key. -/
theorem fills_cons_args (hkey : d.text? key = some "args") :
    d.Fills ((key, value) :: entries) program? args? ↔
      ∃ texts, args? = some texts ∧ d.HoldsTexts value texts ∧ d.Fills entries program? none := by
  have hne : "args" ≠ "program" := by decide
  simp only [fills_iff, keys_cons_iff hkey, valuesBehind_cons_self hkey,
    valuesBehind_cons_of_ne hkey hne, forall₂_cons_toList_iff]
  constructor
  · rintro ⟨hkeys, hprogram, texts, rfl, hvalue, hrest⟩
    exact ⟨texts, rfl, hvalue, hkeys, hprogram, hrest⟩
  · rintro ⟨texts, rfl, hvalue, hkeys, hprogram, hrest⟩
    exact ⟨hkeys, hprogram, texts, rfl, hvalue, hrest⟩

/-- Any other key is passed over, whatever is behind it. -/
theorem fills_cons_other (hkey : d.text? key = some name) (hprogram : name ≠ "program")
    (hargs : name ≠ "args") :
    d.Fills ((key, value) :: entries) program? args? ↔ d.Fills entries program? args? := by
  simp only [fills_iff, keys_cons_iff hkey, valuesBehind_cons_of_ne hkey hprogram,
    valuesBehind_cons_of_ne hkey hargs]

/-! ### The order of the entries -/

theorem forall₂_toList_of_perm {α : Type} {R : Node → α → Prop} {nodes nodes' : List Node}
    {a? : Option α} (hperm : nodes'.Perm nodes) (h : List.Forall₂ R nodes a?.toList) :
    List.Forall₂ R nodes' a?.toList := by
  cases a? with
  | none =>
    cases h
    rw [hperm.eq_nil]
    exact .nil
  | some a =>
    obtain ⟨node, rest, hnode, hrest, rfl⟩ := List.forall₂_cons_right_iff.1 h
    cases hrest
    rw [List.perm_singleton.1 hperm]
    exact .cons hnode .nil

/-- The order of the entries does not matter. -/
theorem Fills.of_perm {entries' : List (Node × Node)} (h : d.Fills entries program? args?)
    (hperm : entries'.Perm entries) : d.Fills entries' program? args? := by
  have hvalues : ∀ name, (d.valuesBehind name entries').Perm (d.valuesBehind name entries) :=
    fun name => (hperm.filter _).map Prod.snd
  exact ⟨fun e he => h.keys e (hperm.mem_iff.1 he), forall₂_toList_of_perm (hvalues _) h.program,
    forall₂_toList_of_perm (hvalues _) h.args⟩

/-- An entry with another key may stand anywhere. -/
theorem fills_insert_other {before after : List (Node × Node)} (hkey : d.text? key = some name)
    (hprogram : name ≠ "program") (hargs : name ≠ "args") :
    d.Fills (before ++ (key, value) :: after) program? args? ↔
      d.Fills (before ++ after) program? args? := by
  have hperm : (before ++ (key, value) :: after).Perm ((key, value) :: (before ++ after)) :=
    List.perm_middle
  exact Iff.trans ⟨fun h => h.of_perm hperm.symm, fun h => h.of_perm hperm⟩
    (fills_cons_other hkey hprogram hargs)

/-- The document is empty or a mapping, and gives the two fields. -/
def Describes (d : Document) (program? : Option String) (args? : Option (List String)) : Prop :=
  ∃ entries, d.HasEntries entries ∧ d.Fills entries program? args?

end Document

end Yaml

theorem Path.bytes_ofString_eq_nil_iff {text : String} :
    (Path.ofString text).bytes = [] ↔ text = "" := by
  rw [Path.ofString, Utf8.encode, List.flatMap_eq_nil_iff, ← String.toList_eq_nil_iff,
    List.eq_nil_iff_forall_not_mem]
  simp only [String.utf8EncodeChar_ne_nil, imp_false]

namespace Config

open Yaml

variable {d : Yaml.Document} {node key value : Node} {path expected name text : String}
  {texts : List String} {items : List Node} {entries : List (Node × Node)}
  {program? : Option String} {args? : Option (List String)} {s s' : ConfigFields} {c : Config}

/-! ### Reading values -/

theorem bind_eq_ok_iff {α β : Type} {x : Except Fault α} {f : α → Except Fault β} {b : β} :
    x.bind f = .ok b ↔ ∃ a, x = .ok a ∧ f a = .ok b := by
  cases x <;> simp [Except.bind]

theorem readText_eq_ok_iff :
    readText d path expected node = .ok text ↔ d.text? node = some text := by
  unfold readText Document.text?
  cases d.resolve node <;> simp

theorem readItems_eq_ok_iff {index : Nat} : readItems d path index items = .ok texts ↔
    List.Forall₂ (fun item text => d.text? item = some text) items texts := by
  induction items generalizing index texts with
  | nil => cases texts <;> simp [readItems]
  | cons item items ih =>
    have hread : readItems d path index (item :: items) =
        (readText d (path ++ "[" ++ toString index ++ "]") "a string" item).bind fun text =>
          (readItems d path (index + 1) items).bind fun texts => .ok (text :: texts) := rfl
    simp only [hread, bind_eq_ok_iff, readText_eq_ok_iff, ih, List.forall₂_cons_left_iff,
      Except.ok.injEq]
    constructor
    · rintro ⟨text, hitem, texts, hitems, rfl⟩
      exact ⟨text, texts, hitem, hitems, rfl⟩
    · rintro ⟨text, texts, hitem, hitems, rfl⟩
      exact ⟨text, hitem, texts, hitems, rfl⟩

theorem isBlankNode_iff : isBlankNode node ↔ ∃ tag, node = .scalar "" .plain tag := by
  unfold isBlankNode
  split
  · simp
  · rename_i h
    simp only [Bool.false_eq_true, false_iff, not_exists]
    rintro tag rfl
    exact h _ _ rfl

theorem readArgs_of_sequence (h : d.resolve node = .sequence items) :
    readArgs d path node = readItems d path 0 items := by
  rw [readArgs, h]

theorem readArgs_of_ne (h : ∀ items, d.resolve node ≠ .sequence items) :
    readArgs d path node = if isBlankNode (d.resolve node) then .ok []
      else .error (.mismatch path (d.mismatch node) "a sequence") := by
  unfold readArgs
  split
  · rename_i items hitems
    exact absurd hitems (h items)
  · rfl

theorem readArgs_eq_ok_iff : readArgs d path node = .ok texts ↔ d.HoldsTexts node texts := by
  -- a sequence is read item by item, and another node only if it is blank
  by_cases h : ∃ items, d.resolve node = .sequence items
  · obtain ⟨items, hitems⟩ := h
    rw [readArgs_of_sequence hitems, readItems_eq_ok_iff]
    constructor
    · exact .sequence hitems
    · rintro (⟨hitems', htexts⟩ | hblank)
      · rw [hitems] at hitems'
        obtain rfl := Node.sequence.inj hitems'
        exact htexts
      · rw [hitems] at hblank
        cases hblank
  · rw [readArgs_of_ne (not_exists.1 h)]
    constructor
    · intro hread
      split_ifs at hread with hblank
      obtain rfl := Except.ok.inj hread
      obtain ⟨tag, htag⟩ := isBlankNode_iff.1 hblank
      exact .blank htag
    · rintro (⟨hitems, -⟩ | hblank)
      · exact absurd ⟨_, hitems⟩ h
      · rw [if_pos (isBlankNode_iff.2 ⟨_, hblank⟩)]

/-! ### Reading entries -/

theorem readEntries_cons (hkey : d.text? key = some name) :
    readEntries d s ((key, value) :: entries) =
      if name = "program" then
        if s.program.isSome then .error (.duplicateField name)
        else (readText d (pathBehind key name) "path string" value).bind fun program =>
          readEntries d { s with program := some (.ofString program) } entries
      else if name = "args" then
        if s.args.isSome then .error (.duplicateField name)
        else (readArgs d (pathBehind key name) value).bind fun args =>
          readEntries d { s with args := some args } entries
      else readEntries d s entries := by
  rw [readEntries, readText_eq_ok_iff.2 hkey]
  show (if name = "program" then _ else _) = _
  split_ifs <;> rfl

theorem readEntries_ne_ok (hkey : d.text? key = none) :
    readEntries d s ((key, value) :: entries) ≠ .ok s' := by
  intro h
  obtain ⟨name, hname, -⟩ := bind_eq_ok_iff.1 h
  rw [readText_eq_ok_iff, hkey] at hname
  cases hname

theorem readEntries_cons_program (hkey : d.text? key = some "program") :
    readEntries d s ((key, value) :: entries) = .ok s' ↔
      s.program = none ∧ ∃ text, d.text? value = some text ∧
        readEntries d { s with program := some (.ofString text) } entries = .ok s' := by
  rw [readEntries_cons hkey, if_pos rfl]
  cases hknown : s.program with
  | none => simp only [Option.isSome_none, Bool.false_eq_true, if_false, bind_eq_ok_iff,
      readText_eq_ok_iff, true_and]
  | some program => simp

theorem readEntries_cons_args (hkey : d.text? key = some "args") :
    readEntries d s ((key, value) :: entries) = .ok s' ↔
      s.args = none ∧ ∃ texts, d.HoldsTexts value texts ∧
        readEntries d { s with args := some texts } entries = .ok s' := by
  rw [readEntries_cons hkey, if_neg (by decide), if_pos rfl]
  cases hknown : s.args with
  | none => simp only [Option.isSome_none, Bool.false_eq_true, if_false, bind_eq_ok_iff,
      readArgs_eq_ok_iff, true_and]
  | some args => simp

theorem readEntries_cons_other (hkey : d.text? key = some name) (hprogram : name ≠ "program")
    (hargs : name ≠ "args") :
    readEntries d s ((key, value) :: entries) = readEntries d s entries := by
  rw [readEntries_cons hkey, if_neg hprogram, if_neg hargs]

/-- The entries of a mapping are read if they give each field that is not yet known at most once. -/
theorem readEntries_eq_ok_iff : readEntries d s entries = .ok s' ↔
    ∃ program? args?, d.Fills entries program? args? ∧
      (program?.isSome → s.program = none) ∧ (args?.isSome → s.args = none) ∧
      s' = ⟨(program?.map Path.ofString).or s.program, args?.or s.args⟩ := by
  -- The fields that are known grow with each entry, so the rest of the entries is taken for all of
  -- them; a second entry for a field fails since the rest may not say anything about it any more.
  induction entries generalizing s with
  | nil =>
    simp only [readEntries, Document.fills_nil, Except.ok.injEq]
    constructor
    · rintro rfl
      exact ⟨none, none, ⟨rfl, rfl⟩, nofun, nofun, rfl⟩
    · rintro ⟨_, _, ⟨rfl, rfl⟩, -, -, rfl⟩
      rfl
  | cons e entries ih =>
    obtain ⟨key, value⟩ := e
    cases hkey : d.text? key with
    | none =>
      constructor
      · exact fun h => absurd h (readEntries_ne_ok hkey)
      · rintro ⟨_, _, hfills, -⟩
        have hsome := hfills.keys (key, value) List.mem_cons_self
        rw [hkey] at hsome
        cases hsome
    | some name =>
      by_cases hprogram : name = "program"
      · subst hprogram
        simp only [readEntries_cons_program hkey, Document.fills_cons_program hkey, ih]
        constructor
        · rintro ⟨hunknown, text, hvalue, program?, args?, hfills, hagain, hargs, rfl⟩
          cases program? with
          | some _ => cases hagain rfl
          | none =>
            exact ⟨some text, args?, ⟨text, rfl, hvalue, hfills⟩, fun _ => hunknown, hargs, rfl⟩
        · rintro ⟨_, args?, ⟨text, rfl, hvalue, hfills⟩, hunknown, hargs, rfl⟩
          exact ⟨hunknown rfl, text, hvalue, none, args?, hfills, nofun, hargs, rfl⟩
      · by_cases hargs : name = "args"
        · subst hargs
          simp only [readEntries_cons_args hkey, Document.fills_cons_args hkey, ih]
          constructor
          · rintro ⟨hunknown, texts, hvalue, program?, args?, hfills, hprogram, hagain, rfl⟩
            cases args? with
            | some _ => cases hagain rfl
            | none =>
              exact ⟨program?, some texts, ⟨texts, rfl, hvalue, hfills⟩, hprogram,
                fun _ => hunknown, rfl⟩
          · rintro ⟨program?, _, ⟨texts, rfl, hvalue, hfills⟩, hprogram, hunknown, rfl⟩
            exact ⟨hunknown rfl, texts, hvalue, program?, none, hfills, hprogram, nofun, rfl⟩
        · rw [readEntries_cons_other hkey hprogram hargs, ih]
          simp only [Document.fills_cons_other hkey hprogram hargs]

/-! ### Documents -/

theorem readDocument_of_hasEntries (h : d.HasEntries entries) :
    readDocument d = readEntries d {} entries := by
  cases h with
  | nothing hroot => rw [readDocument, hroot, readEntries]
  | blank hroot hnode =>
    rw [readDocument, hroot]
    simp [hnode, isBlankNode, readEntries]
  | mapping hroot hnode =>
    rw [readDocument, hroot]
    simp only [hnode]

theorem exists_hasEntries (h : readDocument d = .ok s) : ∃ entries, d.HasEntries entries := by
  unfold readDocument at h
  split at h
  · rename_i hroot
    exact ⟨[], .nothing hroot⟩
  · rename_i root hroot
    split at h
    · rename_i entries hnode
      exact ⟨entries, .mapping hroot hnode⟩
    · split_ifs at h with hblank
      obtain ⟨tag, htag⟩ := isBlankNode_iff.1 hblank
      exact ⟨[], .blank hroot htag⟩

theorem readDocument_eq_ok_iff : readDocument d = .ok s ↔
    ∃ program? args?, d.Describes program? args? ∧ s = ⟨program?.map Path.ofString, args?⟩ := by
  have hread : ∀ {entries}, d.HasEntries entries → (readDocument d = .ok s ↔
      ∃ program? args?, d.Fills entries program? args? ∧
        s = ⟨program?.map Path.ofString, args?⟩) := by
    intro entries hentries
    rw [readDocument_of_hasEntries hentries, readEntries_eq_ok_iff]
    simp
  constructor
  · intro h
    obtain ⟨entries, hentries⟩ := exists_hasEntries h
    obtain ⟨program?, args?, hfills, hs⟩ := (hread hentries).1 h
    exact ⟨program?, args?, ⟨entries, hentries, hfills⟩, hs⟩
  · rintro ⟨program?, args?, ⟨entries, hentries, hfills⟩, hs⟩
    exact (hread hentries).2 ⟨program?, args?, hfills, hs⟩

theorem validate_eq : validate c =
    if c.program.bytes = [] then .error .emptyProgram else .ok c := by
  simp only [validate, List.isEmpty_iff]

theorem ofDocument_of_describes (h : d.Describes program? args?) :
    ofDocument d = if program? = some "" then .error .emptyProgram
      else .ok ⟨.ofString (program?.getD "./gridsynth"), args?.getD []⟩ := by
  have hconfig : (⟨program?.map Path.ofString, args?⟩ : ConfigFields).toConfig =
      ⟨.ofString (program?.getD "./gridsynth"), args?.getD []⟩ := by
    cases program? <;> rfl
  have hempty : (Path.ofString (program?.getD "./gridsynth")).bytes = [] ↔ program? = some "" := by
    rw [Path.bytes_ofString_eq_nil_iff]
    cases program? <;> simp
  rw [ofDocument, readDocument_eq_ok_iff.2 ⟨_, _, h, rfl⟩]
  show validate _ = _
  rw [hconfig, validate_eq]
  simp only [hempty]

theorem exists_describes (h : ofDocument d = .ok c) :
    ∃ program? args?, d.Describes program? args? := by
  obtain ⟨s, hs, -⟩ := bind_eq_ok_iff.1 h
  obtain ⟨program?, args?, hdescribes, -⟩ := readDocument_eq_ok_iff.1 hs
  exact ⟨program?, args?, hdescribes⟩

/-! ### Texts -/

section

variable [Yaml.Reader]

theorem ofText_of_document (h : Reader.document? text = some d) :
    ofText text = (ofDocument d).mapError fun fault => .config fault.message := by
  rw [ofText, ofText?, h]

theorem ofText_of_describes (h : Reader.document? text = some d)
    (hdescribes : d.Describes program? args?) :
    ofText text = if program? = some "" then .error (.config "oracle program must not be empty")
      else .ok ⟨.ofString (program?.getD "./gridsynth"), args?.getD []⟩ := by
  rw [ofText_of_document h, ofDocument_of_describes hdescribes]
  split_ifs <;> rfl

/-- A text is read if and only if its document gives the two fields and its program is not empty. -/
theorem ofText_eq_ok_iff : ofText text = .ok c ↔
    ∃ d program? args?, Reader.document? text = some d ∧ d.Describes program? args? ∧
      program? ≠ some "" ∧ c = ⟨.ofString (program?.getD "./gridsynth"), args?.getD []⟩ := by
  constructor
  · intro h
    cases hdocument : Reader.document? text with
    | none =>
      rw [ofText, ofText?, hdocument] at h
      cases h
    | some d =>
      rw [ofText_of_document hdocument] at h
      cases hread : ofDocument d with
      | error fault =>
        rw [hread] at h
        cases h
      | ok c' =>
        obtain ⟨program?, args?, hdescribes⟩ := exists_describes hread
        rw [ofDocument_of_describes hdescribes] at h
        split_ifs at h with hempty
        · cases h
        · exact ⟨d, program?, args?, rfl, hdescribes, hempty, (Except.ok.inj h).symm⟩
  · rintro ⟨d, program?, args?, hdocument, hdescribes, hempty, rfl⟩
    rw [ofText_of_describes hdocument hdescribes, if_neg hempty]

theorem program_ne_nil_of_ofText (h : ofText text = .ok c) : c.program.bytes ≠ [] := by
  obtain ⟨d, program?, args?, -, -, hempty, rfl⟩ := ofText_eq_ok_iff.1 h
  rw [Ne, Path.bytes_ofString_eq_nil_iff]
  cases program? with
  | none => decide
  | some program => exact fun h => hempty (congrArg some h)

theorem exists_of_ofText_error {e : PipelineError} (h : ofText text = .error e) :
    ∃ message, e = .config message := by
  rw [ofText] at h
  cases hread : ofText? text with
  | ok c =>
    rw [hread] at h
    cases h
  | error fault =>
    rw [hread] at h
    exact ⟨_, (Except.error.inj h).symm⟩

variable {contentOf : Path → Except SystemError (List UInt8)} {p : Path}

/-! ### Files -/

theorem load_of_text (h : contentOf p = .ok (Utf8.encode text.toList)) :
    load contentOf p = ofText text := by
  rw [load, h]
  dsimp only
  rw [Utf8.decode_eq_ok_iff.2 rfl]
  dsimp only
  rw [String.ofList_toList]

theorem load_of_no_text (h : ∀ text : String, contentOf p ≠ .ok (Utf8.encode text.toList)) :
    ∃ message, load contentOf p = .error (.config message) := by
  unfold load
  split
  · exact ⟨_, rfl⟩
  · rename_i bytes hbytes
    split
    · exact ⟨_, rfl⟩
    · rename_i cs hcs
      refine absurd ?_ (h (String.ofList cs))
      rw [hbytes, String.toList_ofList, Utf8.decode_eq_ok_iff.1 hcs]

theorem exists_of_load (h : load contentOf p = .ok c) : ∃ text, ofText text = .ok c := by
  by_cases htext : ∃ text : String, contentOf p = .ok (Utf8.encode text.toList)
  · obtain ⟨text, htext⟩ := htext
    exact ⟨text, (load_of_text htext).symm.trans h⟩
  · obtain ⟨message, hmessage⟩ := load_of_no_text (not_exists.1 htext)
    rw [hmessage] at h
    cases h

/-- **A configuration is what a document gives for the two fields.**  A document that is empty or a
mapping, with the two keys once at most and with a text and a list of texts behind them, is read as
the configuration of these values or their defaults; it is refused if and only if its program is
empty.  Neither the order of the entries nor any entry with another key matters.  No other document
is read, what is read has a program, and every fault is one of the configuration.  A file is read as
its text, and refused if it is none. -/
theorem document_gives_config :
    (∀ text d program? args?, Reader.document? text = some d → d.Describes program? args? →
      ofText text = if program? = some "" then .error (.config "oracle program must not be empty")
        else .ok ⟨.ofString (program?.getD "./gridsynth"), args?.getD []⟩) ∧
    (∀ (d : Document) entries program? args?, d.Fills entries program? args? →
      (∀ entries', entries'.Perm entries → d.Fills entries' program? args?) ∧
      ∀ before after key value name, entries = before ++ after → d.text? key = some name →
        name ≠ "program" → name ≠ "args" →
          d.Fills (before ++ (key, value) :: after) program? args?) ∧
    (∀ text c, ofText text = .ok c → c.program.bytes ≠ [] ∧
      ∃ d program? args?, Reader.document? text = some d ∧ d.Describes program? args?) ∧
    (∀ text e, ofText text = .error e → ∃ message, e = .config message) ∧
    (∀ contentOf p (text : String), contentOf p = .ok (Utf8.encode text.toList) →
      load contentOf p = ofText text) ∧
    ∀ contentOf p, (∀ text : String, contentOf p ≠ .ok (Utf8.encode text.toList)) →
      ∃ message, load contentOf p = .error (.config message) := by
  refine ⟨fun _ _ _ _ => ofText_of_describes, fun d entries program? args? h => ⟨?_, ?_⟩,
    fun text c h => ⟨program_ne_nil_of_ofText h, ?_⟩, fun _ _ => exists_of_ofText_error,
    fun _ _ _ => load_of_text, fun _ _ => load_of_no_text⟩
  · exact fun entries' hperm => h.of_perm hperm
  · rintro before after key value name rfl hkey hprogram hargs
    exact (Document.fills_insert_other hkey hprogram hargs).2 h
  · obtain ⟨d, program?, args?, hdocument, hdescribes, -⟩ := ofText_eq_ok_iff.1 h
    exact ⟨d, program?, args?, hdocument, hdescribes⟩

end

/-- A document with the arguments in front of the program, and between them a key that occurs twice
and has a reference inside. -/
def sampleDocument (program : String) : Document :=
  ⟨some (.mapping
    [(.scalar "args" .plain none, .sequence [.scalar "-d" .plain none, .scalar "~" .plain none]),
      (.scalar "x" .plain none, .scalar "1" .plain none),
      (.scalar "x" .plain none, .mapping [(.scalar "k" .plain none, .reference 0)]),
      (.scalar "program" .plain none, .scalar program .doubleQuoted none)]),
    [(0, 0)], [(0, .scalar "1" .plain none)]⟩

theorem sampleDocument_describes (program : String) :
    (sampleDocument program).Describes (some program) (some ["-d", "~"]) := by
  refine ⟨_, .mapping rfl rfl, (Document.fills_cons_args rfl).2 ⟨_, rfl, .sequence rfl ?_, ?_⟩⟩
  · exact .cons rfl (.cons rfl .nil)
  · refine (Document.fills_cons_other rfl (by decide) (by decide)).2 ?_
    refine (Document.fills_cons_other rfl (by decide) (by decide)).2 ?_
    exact (Document.fills_cons_program rfl).2 ⟨_, rfl, rfl, Document.fills_nil.2 ⟨rfl, rfl⟩⟩

theorem document_gives_config_other_keys :
    ofText "args: [-d, ~]\nx: &a 1\nx: \x7bk: *a\x7d\nprogram: \"/s\"\n" =
      .ok ⟨.ofString "/s", ["-d", "~"]⟩ ∧
    ofText "args: [-d, ~]\nx: &a 1\nx: \x7bk: *a\x7d\nprogram: \"\"\n" =
      .error (.config "oracle program must not be empty") ∧
    load (fun _ => .ok (Utf8.encode "# none".toList)) (.ofString "oracle.yaml") = .ok .standard ∧
    ∃ message, load (fun _ => .ok [0xff]) (.ofString "oracle.yaml") = .error (.config message) := by
  obtain ⟨hread, -, -, -, hload, hrefused⟩ := document_gives_config
  refine ⟨?_, ?_, ?_, ?_⟩
  · rw [hread _ (sampleDocument "/s") _ _ (by decide +kernel) (sampleDocument_describes _),
      if_neg (by decide)]
    rfl
  · rw [hread _ (sampleDocument "") _ _ (by decide +kernel) (sampleDocument_describes _),
      if_pos rfl]
  · have hnone : Document.Describes ⟨none, [], []⟩ none none :=
      ⟨[], .nothing rfl, Document.fills_nil.2 ⟨rfl, rfl⟩⟩
    rw [hload _ _ "# none" rfl, hread _ _ _ _ (by decide +kernel) hnone, if_neg (by decide)]
    rfl
  · refine hrefused _ _ fun text htext => ?_
    have hdecode := Utf8.decode_eq_ok_iff.2 (Except.ok.inj htext)
    have hfault : Utf8.decode [0xff] = .error (.invalid 0 1) := by decide +kernel
    rw [hfault] at hdecode
    cases hdecode

end Config

end CliffordT
