import CliffordT.Host.Shell.Parser

/-!
# Reading goes onward

Whatever is read of a script, and whatever goes wrong with it: lines are counted upwards, so that no
fault is told of a line above the one where reading has started; documents are added to those that
have been read; and no text gets to be an alias.

* `Source.Onward` : a later state of reading,
* `Reader.IsOnward` : an action that leaves such a state behind, or a fault on a later line,
* `Reader.onwardTo` : whatever reads scripts goes onward,
* `Reader.next_onward`, `Reader.next_fault` : what this says of one complete command.
-/

namespace CliffordT

namespace Shell

/-- A later state of reading a script. -/
structure Source.Onward (s s' : Source) : Prop where
  line : s.line ≤ s'.line
  count : s.count ≤ s'.count
  documents : s.documents <:+ s'.documents
  aliases : s'.aliases = s.aliases

namespace Source.Onward

theorem of_eq {s s' : Source} (hline : s'.line = s.line) (hcount : s'.count = s.count)
    (hdocuments : s'.documents = s.documents) (haliases : s'.aliases = s.aliases) : s.Onward s' :=
  ⟨Nat.le_of_eq hline.symm, Nat.le_of_eq hcount.symm, hdocuments ▸ List.suffix_refl _, haliases⟩

theorem refl (s : Source) : s.Onward s := of_eq rfl rfl rfl rfl

theorem trans {a b c : Source} (hab : a.Onward b) (hbc : b.Onward c) : a.Onward c :=
  ⟨Nat.le_trans hab.line hbc.line, Nat.le_trans hab.count hbc.count,
    hab.documents.trans hbc.documents, hbc.aliases.trans hab.aliases⟩

end Source.Onward

namespace Reader

open Source

variable {α β : Type}

/-- A result that is later than a state: the state behind it is, or the line of its fault. -/
def IsLater (start : Source) : Except (Nat × SyntaxFault) (α × Source) → Prop
  | .ok (_, s) => start.Onward s
  | .error (line, _) => start.line ≤ line

/-- From states later than a given one, an action leads to later results. -/
def From (start : Source) (action : Reader α) : Prop :=
  ∀ s : Source, start.Onward s → IsLater start (action s)

/-- An action that leads to later states, or to faults on later lines. -/
class IsOnward (action : Reader α) : Prop where
  since : ∀ start : Source, From start action

/-! ### Actions in general -/

namespace From

variable {start : Source}

theorem pure (a : α) : From start (pure a : Reader α) := fun _ hs => hs

theorem andThen {x : Reader α} {f : α → Reader β} (hx : From start x)
    (hf : ∀ a, From start (f a)) : From start (x >>= f) := by
  intro s hs
  have h := hx s hs
  show IsLater start (x s >>= fun r => f r.1 r.2)
  cases hr : x s with
  | error e =>
    rw [hr] at h
    exact h
  | ok r =>
    rw [hr] at h
    exact hf r.1 r.2 h

theorem afterGet {f : Source → Reader α} (hf : ∀ s, start.Onward s → From start (f s)) :
    From start (MonadState.get >>= f) := fun s hs => hf s hs s hs

theorem ofModify {next : Source → Source} (h : ∀ s, start.Onward s → start.Onward (next s)) :
    From start (modify next : Reader Unit) := h

end From

namespace IsOnward

instance pure (a : α) : IsOnward (pure a : Reader α) := ⟨fun _ _ hs => hs⟩

instance fail (f : SyntaxFault) : IsOnward (fail f : Reader α) := ⟨fun _ _ hs => hs.line⟩

instance get : IsOnward (get : Reader Source) := ⟨fun _ _ hs => hs⟩

instance bind (x : Reader α) (f : α → Reader β) [hx : IsOnward x] [hf : ∀ a, IsOnward (f a)] :
    IsOnward (x >>= f) :=
  ⟨fun start => (hx.since start).andThen fun a => (hf a).since start⟩

theorem andThen (x : Reader α) (f : α → Reader β) (hx : IsOnward x) (hf : ∀ a, IsOnward (f a)) :
    IsOnward (x >>= f) := bind x f

instance ite (c : Prop) [Decidable c] (x y : Reader α) [IsOnward x] [IsOnward y] :
    IsOnward (if c then x else y) := by
  split <;> infer_instance

theorem ofModify {next : Source → Source} (h : ∀ s : Source, s.Onward (next s)) :
    IsOnward (modify next : Reader Unit) := ⟨fun _ s hs => hs.trans (h s)⟩

/-! ### Characters -/

instance peek : IsOnward peek :=
  ⟨fun _ s hs => hs.trans ⟨Nat.le_add_right s.line _, Nat.le_refl _, List.suffix_refl _, rfl⟩⟩

instance skip : IsOnward skip := by
  constructor
  intro start s hs
  refine hs.trans ⟨?_, Nat.le_refl _, List.suffix_refl _, rfl⟩
  dsimp only
  split
  · exact Nat.le_succ _
  · exact Nat.le_refl _

instance takeIf (p : Char → Bool) : IsOnward (takeIf p) := by
  unfold Source.takeIf
  refine andThen _ _ peek fun c => ?_
  cases c <;> infer_instance

instance accept (x : Char) : IsOnward (accept x) := by
  unfold Source.accept
  infer_instance

instance takeWhile (p : Char → Bool) : IsOnward (takeWhile p) :=
  ⟨fun _ s hs => hs.trans ⟨Nat.le_add_right s.line _, Nat.le_refl _, List.suffix_refl _, rfl⟩⟩

instance awaitCommand : IsOnward awaitCommand :=
  ⟨fun _ _ hs => hs.trans (.of_eq rfl rfl rfl rfl)⟩

instance putBack (t : Token) : IsOnward (putBack t) :=
  ⟨fun _ _ hs => hs.trans (.of_eq rfl rfl rfl rfl)⟩

instance startToken : IsOnward startToken :=
  ⟨fun _ _ hs => hs.trans (.of_eq rfl rfl rfl rfl)⟩

instance insertAlias (name : Text) (inserted : List Inserted) :
    IsOnward (insertAlias name inserted) := by
  refine ⟨fun start => From.afterGet fun s hs => ?_⟩
  split
  · split
    · exact .pure false
    · refine From.andThen (x := set _) (fun _ _ => hs.trans (.of_eq rfl rfl rfl rfl)) fun _ => ?_
      exact .pure true
  · exact .pure false

instance redirectSymbol : IsOnward redirectSymbol := by
  unfold Source.redirectSymbol
  refine andThen _ _ (accept _) fun isOutput => ?_
  split <;> infer_instance

instance treatment (orEmpty : Bool) : IsOnward (treatment orEmpty) := by
  unfold Source.treatment
  refine andThen _ _ (.accept _) fun isElse => ?_
  split
  · infer_instance
  refine andThen _ _ (.accept _) fun isSet => ?_
  split
  · infer_instance
  refine andThen _ _ (.accept _) fun complains => ?_
  split <;> infer_instance

instance unexpected (t : Token) : IsOnward (unexpected t : Reader α) := by
  unfold Source.unexpected
  infer_instance

end IsOnward

/-! ### One step for each function -/

/-- Whatever reads scripts goes onward at a bound. -/
class OnwardTo (n : Nat) : Prop where
  pieces : ∀ p, IsOnward (pieces n p)
  quote : ∀ p, IsOnward (quote n p)
  dollar : ∀ p, IsOnward (dollar n p)
  inBraces : ∀ p, IsOnward (inBraces n p)
  treated : ∀ p name, IsOnward (treated n p name)
  backquotes : ∀ p, IsOnward (backquotes n p)
  backquoted : ∀ p, IsOnward (backquoted n p)
  readDocuments : IsOnward (readDocuments n)
  rawToken : IsOnward (rawToken n)
  token : ∀ hasKeywords skipsNewlines, IsOnward (token n hasKeywords skipsNewlines)
  named : ∀ hasKeywords skipsNewlines inserted t,
    IsOnward (named n hasKeywords skipsNewlines inserted t)
  expectWord : IsOnward (expectWord n)
  expectKeyword : ∀ name, IsOnward (expectKeyword n name)
  redirection : ∀ descriptor symbol, IsOnward (redirection n descriptor symbol)
  redirections : IsOnward (redirections n)
  list : ∀ kind sofar, IsOnward (list n kind sofar)
  body : ∀ due, IsOnward (body n due)
  joined : IsOnward (joined n)
  joins : ∀ first, IsOnward (joins n first)
  pipeline : ∀ hasKeywords skipsNewlines, IsOnward (pipeline n hasKeywords skipsNewlines)
  pipes : IsOnward (pipes n)
  command : ∀ skipsNewlines, IsOnward (command n skipsNewlines)
  conditional : IsOnward (conditional n)
  each : ∀ line, IsOnward (each n line)
  words : IsOnward (words n)
  choice : ∀ line, IsOnward (choice n line)
  branches : IsOnward (branches n)
  patterns : ∀ first, IsOnward (patterns n first)
  simple : ∀ line settings ws rs canAssign, IsOnward (simple n line settings ws rs canAssign)

attribute [instance] OnwardTo.pieces OnwardTo.quote OnwardTo.dollar OnwardTo.inBraces
  OnwardTo.treated OnwardTo.backquotes OnwardTo.backquoted OnwardTo.readDocuments
  OnwardTo.rawToken OnwardTo.token OnwardTo.named OnwardTo.expectWord OnwardTo.expectKeyword
  OnwardTo.redirection OnwardTo.redirections OnwardTo.list OnwardTo.body OnwardTo.joined
  OnwardTo.joins OnwardTo.pipeline OnwardTo.pipes OnwardTo.command OnwardTo.conditional
  OnwardTo.each OnwardTo.words OnwardTo.choice OnwardTo.branches OnwardTo.patterns
  OnwardTo.simple

namespace IsOnward

section Steps

variable (n : Nat) [OnwardTo n]

theorem pieces_succ (p : Surrounding) : IsOnward (pieces (n + 1) p) := by
  unfold Source.pieces
  refine andThen _ _ .peek fun found => ?_
  -- by the character that stands here
  cases found with
  | none =>
    dsimp only
    split <;> infer_instance
  | some c =>
    dsimp only
    split
    · infer_instance
    split
    · refine andThen _ _ .skip fun _ => andThen _ _ .get fun s => ?_
      split <;> infer_instance
    split
    · refine andThen _ _ .skip fun _ => andThen _ _ (.takeWhile _) fun cs => ?_
      refine andThen _ _ .get fun s => ?_
      split <;> infer_instance
    split
    · infer_instance
    split
    · refine andThen _ _ .skip fun _ => andThen _ _ inferInstance fun found => ?_
      split <;> infer_instance
    split
    · infer_instance
    · split <;> infer_instance

theorem quote_succ (p : Surrounding) : IsOnward (quote (n + 1) p) := by
  unfold Source.quote
  refine andThen _ _ .skip fun _ => ?_
  split
  · infer_instance
  · infer_instance
  · infer_instance
  · infer_instance
  · refine andThen _ _ .get fun s => ?_
    split
    · exact andThen _ _ (.ofModify fun _ => .of_eq rfl rfl rfl rfl) fun _ => inferInstance
    · infer_instance

theorem dollar_succ (p : Surrounding) : IsOnward (dollar (n + 1) p) := by
  unfold Source.dollar
  refine andThen _ _ .peek fun found => ?_
  split
  · infer_instance
  · split <;> infer_instance

theorem inBraces_succ (p : Surrounding) : IsOnward (inBraces (n + 1) p) := by
  unfold Source.inBraces
  refine andThen _ _ .peek fun found => ?_
  split
  · infer_instance
  · split
    · infer_instance
    split
    · infer_instance
    split
    · refine andThen _ _ .skip fun _ => andThen _ _ .peek fun next => ?_
      split <;> infer_instance
    · infer_instance

theorem treated_succ (p : Surrounding) (name : Text) : IsOnward (treated (n + 1) p name) := by
  unfold Source.treated
  infer_instance

theorem backquotes_succ (p : Surrounding) : IsOnward (backquotes (n + 1) p) := by
  unfold Source.backquotes
  refine ⟨fun start => From.afterGet fun first hfirst => ?_⟩
  refine ((OnwardTo.backquoted p).since start).andThen fun text => ?_
  refine From.afterGet fun s _ => From.afterGet fun last hlast => ?_
  -- The line goes back for the script, and then to where the text has ended.
  refine From.andThen ?_ fun _ => ((OnwardTo.list .optional none).since start).andThen fun body =>
    From.andThen ?_ fun _ => .pure _
  · exact .ofModify fun s hs => ⟨hfirst.line, hs.count, hs.documents, hs.aliases⟩
  · exact .ofModify fun s hs => ⟨hlast.line, hs.count, hs.documents, hs.aliases⟩

theorem backquoted_succ (p : Surrounding) : IsOnward (backquoted (n + 1) p) := by
  unfold Source.backquoted
  refine andThen _ _ .peek fun found => ?_
  split
  · infer_instance
  · refine andThen _ _ .skip fun _ => ?_
    split
    · infer_instance
    split
    · refine andThen _ _ .get fun s => ?_
      split <;> infer_instance
    · infer_instance

theorem readDocuments_succ : IsOnward (readDocuments (n + 1)) := by
  unfold Source.readDocuments
  refine ⟨fun start => From.afterGet fun s _ => ?_⟩
  split
  · exact .pure ()
  · next a others _ =>
    refine From.afterGet fun s _ => ?_
    dsimp only
    refine From.afterGet fun first hfirst => ?_
    refine From.andThen (.ofModify fun s hs => ?_) fun _ => ?_
    · exact hs.trans (.of_eq rfl rfl rfl rfl)
    have hnext : ∀ (text : Phrase) (body : Text) (left : List Text), From start (do
        modify fun s => { s with
          rest := joinWith ['\n'] left
          announced := others
          documents := (a.number, text) :: s.documents
          line := first.line + (body.filter (· == '\n')).length + 1 }
        readDocuments n) := by
      intro text body left
      refine From.andThen (.ofModify fun s hs => ?_) fun _ => OnwardTo.readDocuments.since start
      exact ⟨Nat.le_trans hfirst.line (by dsimp only; omega), hs.count,
        hs.documents.trans (List.suffix_cons _ _), hs.aliases⟩
    split
    · exact ((OnwardTo.pieces .document).since start).andThen fun text => hnext text _ _
    · exact (From.pure _).andThen fun text => hnext text _ _

theorem rawToken_succ : IsOnward (rawToken (n + 1)) := by
  unfold Source.rawToken
  refine andThen _ _ .peek fun found => ?_
  split
  · infer_instance
  · split
    · infer_instance
    split
    · infer_instance
    split
    · infer_instance
    split
    · infer_instance
    split
    · infer_instance
    split
    · infer_instance
    split
    · infer_instance
    split
    · infer_instance
    · refine andThen _ _ inferInstance fun ps => andThen _ _ .peek fun next => ?_
      split <;> infer_instance

theorem token_succ (hasKeywords skipsNewlines : Bool) :
    IsOnward (token (n + 1) hasKeywords skipsNewlines) := by
  unfold Source.token
  refine andThen _ _ .get fun s => ?_
  split
  · exact andThen _ _ (.ofModify fun _ => .of_eq rfl rfl rfl rfl) fun _ => inferInstance
  · infer_instance

theorem named_succ (hasKeywords skipsNewlines : Bool) (inserted : Option (List Inserted))
    (t : Token) : IsOnward (named (n + 1) hasKeywords skipsNewlines inserted t) := by
  unfold Source.named
  split
  · infer_instance
  · split
    · infer_instance
    · split <;> infer_instance
  · infer_instance

theorem expectWord_succ : IsOnward (expectWord (n + 1)) := by
  unfold Source.expectWord
  refine andThen _ _ inferInstance fun t => ?_
  split <;> infer_instance

theorem expectKeyword_succ (name : String) : IsOnward (expectKeyword (n + 1) name) := by
  unfold Source.expectKeyword
  infer_instance

theorem redirection_succ (descriptor : Nat) (symbol : String) :
    IsOnward (redirection (n + 1) descriptor symbol) := by
  unfold Source.redirection
  refine andThen _ _ inferInstance fun target => ?_
  split
  · refine ⟨fun start => From.afterGet fun s hs => ?_⟩
    refine From.andThen (.ofModify fun s' hs' => ?_) fun _ => .pure _
    exact ⟨hs'.line, Nat.le_succ_of_le hs.count, hs'.documents, hs'.aliases⟩
  · infer_instance

theorem redirections_succ : IsOnward (redirections (n + 1)) := by
  unfold Source.redirections
  refine andThen _ _ inferInstance fun t => ?_
  split <;> infer_instance

theorem list_succ (kind : ListKind) (sofar : Option Script) :
    IsOnward (list (n + 1) kind sofar) := by
  unfold Source.list
  refine andThen _ _ inferInstance fun t => ?_
  split
  · infer_instance
  · infer_instance
  · refine andThen _ _ (.putBack t) fun _ => ?_
    split
    · infer_instance
    refine andThen _ _ inferInstance fun next => andThen _ _ inferInstance fun t => ?_
    dsimp only
    split <;> infer_instance

theorem body_succ (due : String) : IsOnward (body (n + 1) due) := by
  unfold Source.body
  refine andThen _ _ inferInstance fun found => ?_
  split <;> infer_instance

theorem joined_succ : IsOnward (joined (n + 1)) := by
  unfold Source.joined
  infer_instance

theorem joins_succ (first : Script) : IsOnward (joins (n + 1) first) := by
  unfold Source.joins
  infer_instance

theorem pipeline_succ (hasKeywords skipsNewlines : Bool) :
    IsOnward (pipeline (n + 1) hasKeywords skipsNewlines) := by
  unfold Source.pipeline
  infer_instance

theorem pipes_succ : IsOnward (pipes (n + 1)) := by
  unfold Source.pipes
  infer_instance

theorem command_succ (skipsNewlines : Bool) : IsOnward (command (n + 1) skipsNewlines) := by
  unfold Source.command
  refine andThen _ _ inferInstance fun t => andThen _ _ .get fun s => ?_
  split <;> infer_instance

theorem conditional_succ : IsOnward (conditional (n + 1)) := by
  unfold Source.conditional
  infer_instance

theorem each_succ (line : Nat) : IsOnward (each (n + 1) line) := by
  unfold Source.each
  refine andThen _ _ inferInstance fun t => ?_
  split
  · extract_lets finish close behind
    have : ∀ words, IsOnward (finish words) := fun words => inferInstance
    have : ∀ u, IsOnward (close u) := fun u => inferInstance
    have : ∀ u, IsOnward (behind u) := by
      intro u
      refine andThen _ _ inferInstance fun t => ?_
      split
      · refine andThen _ _ inferInstance fun ws => andThen _ _ inferInstance fun t => ?_
        extract_lets close
        have : ∀ u, IsOnward (close u) := fun u => inferInstance
        split <;> infer_instance
      · infer_instance
    -- instances would look through the definition otherwise
    clear_value behind
    infer_instance
  · infer_instance

theorem words_succ : IsOnward (words (n + 1)) := by
  unfold Source.words
  refine andThen _ _ inferInstance fun t => ?_
  split <;> infer_instance

theorem choice_succ (line : Nat) : IsOnward (choice (n + 1) line) := by
  unfold Source.choice
  refine andThen _ _ inferInstance fun t => ?_
  split <;> infer_instance

theorem branches_succ : IsOnward (branches (n + 1)) := by
  unfold Source.branches
  refine andThen _ _ inferInstance fun t => ?_
  extract_lets behind
  have : ∀ u, IsOnward (behind u) := by
    intro u
    infer_instance
  infer_instance

theorem patterns_succ (first : Token) : IsOnward (patterns (n + 1) first) := by
  unfold Source.patterns
  infer_instance

theorem simple_succ (line : Nat) (settings : List Assignment) (ws : List Phrase)
    (rs : List Redirection) (canAssign : Bool) :
    IsOnward (simple (n + 1) line settings ws rs canAssign) := by
  unfold Source.simple
  extract_lets behind
  have : ∀ u, IsOnward (behind u) := by
    intro u
    refine andThen _ _ inferInstance fun t => ?_
    split
    · split <;> infer_instance
    · infer_instance
    · split
      · split
        · refine andThen _ _ inferInstance fun t => ?_
          extract_lets plain define behind
          have : ∀ u, IsOnward (define u) := fun u => inferInstance
          have : ∀ u, IsOnward (behind u) := fun u => inferInstance
          clear_value behind
          infer_instance
        · infer_instance
      · infer_instance
  clear_value behind
  infer_instance

end Steps

end IsOnward

/-! ### Whatever is read -/

theorem onwardTo_zero : OnwardTo 0 := by
  constructor
  all_goals intros
  all_goals simp only [Source.pieces, Source.quote, Source.dollar, Source.inBraces, Source.treated,
    Source.backquotes, Source.backquoted, Source.readDocuments, Source.rawToken, Source.token,
    Source.named, Source.expectWord, Source.expectKeyword, Source.redirection,
    Source.redirections, Source.list, Source.body, Source.joined, Source.joins, Source.pipeline,
    Source.pipes, Source.command, Source.conditional, Source.each, Source.words, Source.choice,
    Source.branches, Source.patterns, Source.simple]
  all_goals infer_instance

theorem onwardTo_succ (n : Nat) (h : OnwardTo n) : OnwardTo (n + 1) where
  pieces := IsOnward.pieces_succ n
  quote := IsOnward.quote_succ n
  dollar := IsOnward.dollar_succ n
  inBraces := IsOnward.inBraces_succ n
  treated := IsOnward.treated_succ n
  backquotes := IsOnward.backquotes_succ n
  backquoted := IsOnward.backquoted_succ n
  readDocuments := IsOnward.readDocuments_succ n
  rawToken := IsOnward.rawToken_succ n
  token := IsOnward.token_succ n
  named := IsOnward.named_succ n
  expectWord := IsOnward.expectWord_succ n
  expectKeyword := IsOnward.expectKeyword_succ n
  redirection := IsOnward.redirection_succ n
  redirections := IsOnward.redirections_succ n
  list := IsOnward.list_succ n
  body := IsOnward.body_succ n
  joined := IsOnward.joined_succ n
  joins := IsOnward.joins_succ n
  pipeline := IsOnward.pipeline_succ n
  pipes := IsOnward.pipes_succ n
  command := IsOnward.command_succ n
  conditional := IsOnward.conditional_succ n
  each := IsOnward.each_succ n
  words := IsOnward.words_succ n
  choice := IsOnward.choice_succ n
  branches := IsOnward.branches_succ n
  patterns := IsOnward.patterns_succ n
  simple := IsOnward.simple_succ n

instance onwardTo (n : Nat) : OnwardTo n := by
  induction n with
  | zero => exact onwardTo_zero
  | succ n ih => exact onwardTo_succ n ih

instance next : IsOnward next := by
  refine IsOnward.andThen _ _ .get fun s => IsOnward.andThen _ _ inferInstance fun t => ?_
  split <;> infer_instance

/-- Behind a command the line is not above the one where reading has started, the documents that
have been read stand below the new ones, and the aliases are the same. -/
theorem next_onward {s s' : Source} {found : Option Script}
    (h : Source.next s = .ok (found, s')) : s.Onward s' := by
  have hlater := next.since s s (.refl s)
  rw [h] at hlater
  exact hlater

/-- No fault is told of a line above the one where reading has started. -/
theorem next_fault {s : Source} {line : Nat} {f : SyntaxFault}
    (h : Source.next s = .error (line, f)) : s.line ≤ line := by
  have hlater := next.since s s (.refl s)
  rw [h] at hlater
  exact hlater

end Reader

end Shell

end CliffordT
