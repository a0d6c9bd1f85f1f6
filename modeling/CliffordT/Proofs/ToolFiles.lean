import CliffordT.Host.Tool.Programs
import CliffordT.Proofs.ShellRuns

/-!
# What tools do to files

Of all tools only six change files, and none of them makes a place stand for two entries.

* `Tool.Spares`, `Tool.IsTidy` : a tool that changes no file, and one that keeps places apart,
* `Tool.spares_of_action?` : the tools that change no file,
* `Tool.isTidy_of_action?` : all tools keep places apart.
-/

namespace CliffordT

namespace Tool

open Shell (Text)

/-- A tool that changes no file. -/
class Spares (tool : Action) : Prop where
  changed : ∀ c : Call, (tool c).changed = none

/-- A tool that gives no place two entries. -/
def IsTidy (tool : Action) : Prop :=
  ∀ (c : Call) (files : Files), c.files.IsTable → (tool c).changed = some files → files.IsTable

theorem Spares.isTidy {tool : Action} (h : Spares tool) : IsTidy tool := by
  intro c files _ hchanged
  rw [h.changed c] at hchanged
  cases hchanged

/-! ### Answers that change no file -/

@[simp] theorem Call.changed_refuse (c : Call) (status : Nat) (t : Text) :
    (c.refuse status t).changed = none := rfl

@[simp] theorem Call.changed_answerText (c : Call) (operands : List Text) (f : Text → Text) :
    (c.answerText operands f).changed = none := rfl

@[simp] theorem changed_eachOperand (c : Call) (o : Options) (part : Text → Text) :
    (eachOperand c o part).changed = none := rfl

theorem spares_withOptions {plain valued : String} {long : List (String × Char)} {status : Nat}
    {run : Call → Options → Answer} (h : ∀ c o, (run c o).changed = none) :
    Spares (withOptions plain valued long status run) := by
  constructor
  intro c
  unfold withOptions
  split
  · exact h c _
  · rfl

theorem changed_countOf {c : Call} {o : Options} {answer : Answer}
    (h : countOf c o = .error answer) : answer.changed = none := by
  unfold countOf at h
  split at h
  · cases h
  · split at h
    · cases h
    · obtain rfl := Except.error.inj h
      rfl

instance spares_test : Spares test := by
  constructor
  intro c
  unfold test
  dsimp only
  repeat' first | rfl | split

instance spares_basename : Spares basename := by
  constructor
  intro c
  unfold basename
  dsimp only
  repeat' first | rfl | split

instance spares_cat : Spares cat :=
  spares_withOptions fun c o => by split <;> rfl

instance spares_cut : Spares cut := by
  refine spares_withOptions fun c o => ?_
  dsimp only
  repeat' first | rfl | split

instance spares_dirname : Spares dirname :=
  spares_withOptions fun c o => by split <;> rfl

instance spares_expr : Spares expr := by
  constructor
  intro c
  unfold expr
  dsimp only
  repeat' first | rfl | split

instance spares_grep : Spares grep := by
  refine spares_withOptions fun c o => ?_
  dsimp only
  repeat' first | rfl | split

instance spares_head : Spares head := by
  constructor
  intro c
  refine (spares_withOptions fun c o => ?_).changed _
  split
  · rename_i answer h
    exact changed_countOf h
  · dsimp only
    split <;> rfl

instance spares_tail : Spares tail := by
  constructor
  intro c
  refine (spares_withOptions fun c o => ?_).changed _
  split
  · rename_i answer h
    exact changed_countOf h
  · rfl

instance spares_ls : Spares ls := spares_withOptions fun _ _ => rfl

instance spares_printenv : Spares printenv := by
  constructor
  intro c
  unfold printenv
  split <;> rfl

instance spares_printf : Spares printf := by
  constructor
  intro c
  unfold printf
  split <;> rfl

instance spares_rev : Spares rev := spares_withOptions fun _ _ => rfl

instance spares_sed : Spares sed := by
  refine spares_withOptions fun c o => ?_
  dsimp only
  repeat' first | rfl | split

instance spares_seq : Spares seq := by
  constructor
  intro c
  unfold seq
  dsimp only
  repeat' first | rfl | split

instance spares_sleep : Spares sleep := by
  refine spares_withOptions fun c o => ?_
  dsimp only
  repeat' first | rfl | split

instance spares_sort : Spares sort := spares_withOptions fun _ _ => rfl

instance spares_tac : Spares tac := spares_withOptions fun _ _ => rfl

instance spares_tr : Spares tr := by
  constructor
  intro c
  unfold tr
  dsimp only
  repeat' first | rfl | split

instance spares_uniq : Spares uniq := spares_withOptions fun _ _ => rfl

instance spares_wc : Spares wc := spares_withOptions fun _ _ => rfl

instance spares_yes : Spares yes := ⟨fun _ => rfl⟩

instance spares_echo : Spares echo := ⟨fun _ => rfl⟩

/-- `true` and `false`. -/
instance spares_status (status : Nat) : Spares fun _ => { status } := ⟨fun _ => rfl⟩

/-! ### Tools that change files -/

theorem isTidy_withOptions {plain valued : String} {long : List (String × Char)} {status : Nat}
    {run : Call → Options → Answer} (h : ∀ o, IsTidy fun c => run c o) :
    IsTidy (withOptions plain valued long status run) := by
  intro c files hc hchanged
  unfold withOptions at hchanged
  split at hchanged
  · exact h _ c files hc hchanged
  · cases hchanged

/-- Changes for one operand after the other: the files that each of them starts from keep places
apart. -/
theorem isTidy_changeEach {describe : Text → Text} {operands : List Text}
    {change : Call → Files → Text → Except SystemError Files}
    (h : ∀ (c : Call) (files files' : Files) (t : Text), files.IsTable →
      change c files t = .ok files' → files'.IsTable) :
    IsTidy fun c => changeEach c describe (change c) operands := by
  intro c files hc hchanged
  obtain rfl := Option.some.inj hchanged
  refine List.foldlRecOn operands _
    (motive := fun found : Files × List Text => found.1.IsTable) hc ?_
  rintro ⟨files, faults⟩ hfiles t -
  dsimp only
  split
  · rename_i files' hchange
    exact h c files files' t hfiles hchange
  · exact hfiles

theorem isTidy_refuse (status : Nat) (t : Call → Text) :
    IsTidy fun c => c.refuse status (t c) := Spares.isTidy ⟨fun _ => rfl⟩

theorem isTidy_touch : IsTidy touch := by
  refine isTidy_withOptions fun o => ?_
  split
  · exact isTidy_refuse 1 _
  · refine isTidy_changeEach fun c files files' t hfiles hchange => ?_
    split at hchange
    · obtain rfl := Except.ok.inj hchange
      exact hfiles
    · split at hchange
      · obtain rfl := Except.ok.inj hchange
        exact hfiles
      · split at hchange
        · obtain rfl := Except.ok.inj hchange
          exact hfiles.put _ _
        · cases hchange

theorem isTable_makeAll {files : Files} (h : files.IsTable) (places : List Place) :
    (places.foldl
      (fun files place =>
        if (files.lookup place).isSome then files else files.put place .directory)
      files).IsTable := by
  refine List.foldlRecOn places _ (motive := Files.IsTable) h fun files hfiles place _ => ?_
  split
  · exact hfiles
  · exact hfiles.put place _

theorem isTidy_mkdir : IsTidy mkdir := by
  refine isTidy_withOptions fun o => ?_
  split
  · exact isTidy_refuse 1 _
  · refine isTidy_changeEach fun c files files' t hfiles hchange => ?_
    split at hchange
    · obtain rfl := Except.ok.inj hchange
      exact isTable_makeAll hfiles _
    · split at hchange
      · cases hchange
      · split at hchange
        · obtain rfl := Except.ok.inj hchange
          exact hfiles.put _ _
        · cases hchange

theorem isTidy_rm : IsTidy rm := by
  refine isTidy_withOptions fun o => ?_
  split
  · split
    · exact Spares.isTidy ⟨fun _ => rfl⟩
    · exact isTidy_refuse 1 _
  · -- what is there is removed; all else leaves the files as they are
    refine isTidy_changeEach fun c files files' t hfiles hchange => ?_
    split at hchange
    · split at hchange
      · obtain rfl := Except.ok.inj hchange
        exact hfiles.remove _
      · cases hchange
    · obtain rfl := Except.ok.inj hchange
      exact hfiles.remove _
    · split at hchange
      · obtain rfl := Except.ok.inj hchange
        exact hfiles
      · cases hchange

theorem isTable_copied {files : Files} (h : files.IsTable) (source target : Place) :
    (copied files source target).IsTable :=
  List.foldlRecOn _ _ (motive := Files.IsTable) h fun _ hfiles _ _ => hfiles.put _ _

theorem isTidy_giving (verb : String) (keeps : Bool) : IsTidy (giving verb keeps) := by
  refine isTidy_withOptions fun o => ?_
  split
  · exact isTidy_refuse 1 _
  · exact isTidy_refuse 1 _
  · refine isTidy_changeEach fun c files files' t hfiles hchange => ?_
    split at hchange
    · cases hchange
    · split at hchange
      · cases hchange
      · unfold Except.map at hchange
        split at hchange
        · cases hchange
        · obtain rfl := Except.ok.inj hchange
          -- copies first, and then the original goes if it does not stay
          have hboth := isTable_copied hfiles
          dsimp only
          split
          · exact hfiles
          · split
            · exact hboth _ _
            · exact (hboth _ _).remove _

theorem isTidy_tee : IsTidy tee := by
  refine isTidy_withOptions fun o c files hc hchanged => ?_
  obtain rfl := Option.some.inj hchanged
  refine List.foldlRecOn o.operands _ (motive := Files.IsTable) hc fun files hfiles t _ => ?_
  dsimp only
  split
  · exact hfiles.put _ _
  · exact hfiles

/-! ### All tools -/

/-- The names of the tools that change files. -/
def changers : List String := ["cp", "mkdir", "mv", "rm", "tee", "touch"]

/-- Every other tool leaves all files as they are. -/
theorem spares_of_action? {name : String} {tool : Action} (h : action? name = some tool)
    (hname : name ∉ changers) : Spares tool := by
  unfold action? at h
  split at h
  all_goals cases h
  all_goals first | infer_instance | exact absurd (by decide) hname

/-- No tool makes a place stand for two entries. -/
theorem isTidy_of_action? {name : String} {tool : Action} (h : action? name = some tool) :
    IsTidy tool := by
  by_cases hname : name ∈ changers
  · simp only [changers, List.mem_cons, List.not_mem_nil, or_false] at hname
    obtain rfl | rfl | rfl | rfl | rfl | rfl := hname
    all_goals obtain rfl := Option.some.inj h
    · exact isTidy_giving "stat" true
    · exact isTidy_mkdir
    · exact isTidy_giving "stat" false
    · exact isTidy_rm
    · exact isTidy_tee
    · exact isTidy_touch
  · exact (spares_of_action? h hname).isTidy

end Tool
end CliffordT
