import CliffordT.Proofs.Tap

/-!
# The meaning of a stream

Let every gate of the alphabet on every qubit, and every command that is no rotation, stand for a
map on some states.  The text of a word is a product of operators, so it stands for a map as well,
and with it the rotation that it was found for.

* `Interpretation` : what gates and commands stand for;
* `Interpretation.ofText?`, `Interpretation.ofCommands?` : what a text and a list of commands with
  rotations stand for;
* `Interpretation.execute` : executing commands without rotations in order;
* `Interpretation.ofText?_of_word` : the gates of a word execute the product that its text is;
* `Engine.run_preserves_meaning` : what an engine sends stands for what it was given.
-/

namespace CliffordT

open Outcome (forEach)

universe u

/-- What commands other than rotations stand for. -/
structure Interpretation (S : Type u) where
  /-- The map of a gate of the alphabet on a qubit. -/
  gate : FixedGate → Qubit → S → S
  /-- The map of a command that is no rotation. -/
  plain : Command → S → S
  /-- A gate of the alphabet means the same as a command. -/
  plain_fixed : ∀ g q, plain (.fixed g q) = gate g q

namespace Interpretation

variable {S : Type u} (I : Interpretation S)

/-! ### Texts -/

/-- The characters before the one line terminator, if the text ends in one. -/
def unterminated (cs : List Char) : List Char :=
  if ['\r', '\n'] <:+ cs then cs.take (cs.length - 2)
  else if ['\n'] <:+ cs then cs.take (cs.length - 1)
  else cs

/-- The product of the operators that the characters stand for, the first one outermost. -/
def product? (q : Qubit) : List Char → Option (S → S)
  | [] => some id
  | c :: cs =>
    match FixedGate.ofSymbol? c, product? q cs with
    | some g, some f => some (I.gate g q ∘ f)
    | _, _ => none

/-- The map that a text in operator order stands for. -/
def ofText? (q : Qubit) (raw : String) : Option (S → S) := I.product? q (unterminated raw.toList)

/-! ### Commands -/

/-- Execute commands that are no rotations, one after the other. -/
def execute (cs : List Command) (x : S) : S := cs.foldl (fun x c => I.plain c x) x

variable {ω : Type} [Oracle ω]

/-- The map that a command stands for.  A rotation stands for the text that the oracle answers to
it; one without exactly one target, or without a text of operators, stands for nothing. -/
def ofCommand? (o : ω) (c : Command) : Option (S → S) :=
  match c.gate, c.targets with
  | .rotation axis angle, [q] =>
    match (Oracle.synthesize o axis angle).result with
    | .ok raw => I.ofText? q raw
    | .error _ => none
  | .rotation _ _, _ => none
  | _, _ => some (I.plain c)

/-- The map that some commands stand for, the first one applied first.  The oracle is asked for the
rotations in their order. -/
def ofCommands? (o : ω) : List Command → Option (S → S)
  | [] => some id
  | c :: cs =>
    match I.ofCommand? o c, ofCommands? (Oracle.after o c.question?.toList) cs with
    | some f, some g => some (g ∘ f)
    | _, _ => none

/-! ### Words -/

theorem chomp_eq_unterminated (cs : List Char) : Word.chomp cs = unterminated cs := by
  have hcs : cs = cs.reverse.reverse := cs.reverse_reverse.symm
  unfold Word.chomp unterminated
  split
  · rename_i rest h
    rw [h] at hcs
    subst hcs
    rw [if_pos ⟨rest.reverse, by simp⟩]
    simp
  · rename_i rest hcr h
    rw [h] at hcs
    subst hcs
    rw [if_neg, if_pos ⟨rest.reverse, by simp⟩]
    · simp
    · rintro ⟨ds, hds⟩
      exact hcr ds.reverse (by simpa using (congrArg List.reverse hds).symm)
  · rename_i hcr hlf
    rw [if_neg, if_neg]
    · rintro ⟨ds, hds⟩
      exact hlf ds.reverse (by simp [← hds])
    · rintro ⟨ds, hds⟩
      exact hcr ds.reverse (by simp [← hds])

theorem execute_append (cs ds : List Command) :
    I.execute (cs ++ ds) = I.execute ds ∘ I.execute cs := by
  funext x
  exact List.foldl_append

theorem execute_fixed (g : FixedGate) (q : Qubit) : I.execute [.fixed g q] = I.gate g q :=
  I.plain_fixed g q

variable {I} {q : Qubit} {o : ω} {c : Command} {cs ds : List Command} {f g : S → S}

theorem product?_eq {cs : List Char} {position : Nat} {gs : List FixedGate}
    (h : Word.gatesFrom position cs = .ok gs) :
    I.product? q cs = some (I.execute (Word.toCommands ⟨gs.reverse⟩ q)) := by
  induction cs generalizing position gs with
  | nil =>
    cases h
    rfl
  | cons c cs ih =>
    rw [Word.gatesFrom] at h
    cases hc : FixedGate.ofSymbol? c with
    | none => simp [hc] at h
    | some k =>
      cases hcs : Word.gatesFrom (position + 1) cs with
      | error err => simp [hc, hcs, Except.map] at h
      | ok ks =>
        simp only [hc, hcs, Except.map] at h
        cases h
        -- the first letter is the outermost operator, so its gate comes last
        have hlast : Word.toCommands ⟨(k :: ks).reverse⟩ q =
            Word.toCommands ⟨ks.reverse⟩ q ++ [.fixed k q] := by
          simp [Word.toCommands]
        rw [hlast, execute_append, execute_fixed]
        simp [product?, hc, ih hcs]

/-- The commands of a word execute the product that its text is. -/
theorem ofText?_of_word {raw : String} {w : Word} (h : Word.ofOperatorText raw = .ok w)
    (q : Qubit) : I.ofText? q raw = some (I.execute (w.toCommands q)) := by
  unfold Word.ofOperatorText at h
  rw [chomp_eq_unterminated] at h
  cases hgs : Word.gatesFrom 0 (unterminated raw.toList) with
  | error err => simp [hgs, Except.map] at h
  | ok gs =>
    simp only [hgs, Except.map] at h
    cases h
    exact product?_eq hgs

/-! ### Batches -/

theorem ofCommand?_of_plain (hc : c.gate.isRotation = false) :
    I.ofCommand? o c = some (I.execute [c]) := by
  obtain ⟨gate, targets⟩ := c
  cases gate with
  | rotation axis angle => cases hc
  | _ => rfl

theorem ofCommand?_rotation {axis : Axis} {angle : Binary64} {w : Word}
    (hw : Oracle.wordFor o axis angle = .ok w) (q : Qubit) :
    I.ofCommand? o (.rotation axis angle q) = some (I.execute (w.toCommands q)) := by
  obtain ⟨raw, hraw, hword⟩ := Oracle.wordFor_eq_ok_iff.1 hw
  simp only [ofCommand?, Command.rotation, hraw]
  exact ofText?_of_word hword q

theorem ofCommands?_cons (hc : I.ofCommand? o c = some f)
    (hcs : I.ofCommands? (Oracle.after o c.question?.toList) cs = some g) :
    I.ofCommands? o (c :: cs) = some (g ∘ f) := by
  rw [ofCommands?, hc, hcs]

theorem ofCommands?_append (hcs : I.ofCommands? o cs = some f)
    (hds : I.ofCommands? (Oracle.after o (cs.filterMap Command.question?)) ds = some g) :
    I.ofCommands? o (cs ++ ds) = some (g ∘ f) := by
  induction cs generalizing o f with
  | nil =>
    cases hcs
    exact hds
  | cons c cs ih =>
    rw [ofCommands?] at hcs
    split at hcs
    · rename_i f₁ f₂ hc hrest
      cases hcs
      -- the second list finds the oracle behind the questions of the first one
      have hasked : Oracle.after o ((c :: cs).filterMap Command.question?) =
          Oracle.after (Oracle.after o c.question?.toList) (cs.filterMap Command.question?) := by
        rw [← Oracle.after_append]
        cases hq : c.question? <;> simp [hq]
      rw [hasked] at hds
      exact ofCommands?_cons (f := f₁) (g := g ∘ f₂) hc (ih hrest hds)
    · cases hcs

end Interpretation

open Interpretation

theorem Rewrites.ofCommands?_eq {S : Type u} (I : Interpretation S) {ω : Type} [Oracle ω] {o : ω}
    {cs : List Command} {ws : List Word} {ps : List Part} (h : Rewrites cs ws ps)
    (hws : Oracle.words o (cs.filterMap Command.question?) = .ok ws) :
    I.ofCommands? o cs = some (I.execute (ps.flatMap Part.commands)) := by
  induction h generalizing o with
  | nil => rfl
  | @plain c _ _ _ hc h ih =>
    have hq := Command.question?_of_plain hc
    rw [List.filterMap_cons_none hq] at hws
    rw [List.flatMap_cons, execute_append]
    refine ofCommands?_cons (ofCommand?_of_plain hc) ?_
    rw [hq]
    exact ih hws
  | rotation axis angle q w h ih =>
    obtain ⟨hw, hws⟩ := Oracle.words_cons_eq_ok_iff.1 hws
    rw [List.flatMap_cons, execute_append]
    exact ofCommands?_cons (ofCommand?_rotation hw q) (ih hws)

/-! ### Runs -/

namespace Engine

variable {ω σ ρ : Type} [Oracle ω] [Sink σ] [Recorder ρ]

/-- The commands that the sink of an engine accepts during some calls, in order. -/
def acceptedStream (e : Engine ω σ ρ) (batches : List (List Command)) : List Command :=
  match (e.tapped.run batches).state.sink with
  | some t => t.accepted
  | none => []

/-- The tap behind a call that succeeds, with nothing waiting before it, has written down commands
without a rotation, which execute what the batch stands for. -/
theorem process_of_tap {S : Type u} (I : Interpretation S) {e : Engine ω (Tap σ) ρ} {t : Tap σ}
    {batch : List Command} (hs : e.sink = some t) (hp : e.pending = [])
    (h : (e.process batch).error? = none) :
    ∃ stream, (e.process batch).state.sink =
        some ⟨(Sink.sendAll t.sink stream).state, t.accepted ++ stream⟩ ∧
      (Sink.sendAll t.sink stream).error? = none ∧
      (e.process batch).state.pending = [] ∧ (∀ c ∈ stream, c.gate.isRotation = false) ∧
      I.ofCommands? e.oracle batch = some (I.execute stream) ∧
      (e.process batch).state.oracle =
        Oracle.after e.oracle (batch.filterMap Command.question?) := by
  have hclassify := classify_ok_of_process_ok h
  obtain ⟨ws, ps, hws, hps, herror, hstate⟩ := process_rewrites_of_nil hs hp hclassify
  have hsend := herror.symm.trans h
  obtain ⟨terror, tstate⟩ := Tap.sendAll_eq t (ps.flatMap Part.commands)
  have hsend' := terror.symm.trans hsend
  rw [Sink.accepted_of_ok hsend', List.take_length] at tstate
  refine ⟨ps.flatMap Part.commands, ?_, hsend', ?_, hps.plain_of_mem, hps.ofCommands?_eq I hws, ?_⟩
  · rw [hstate, ← tstate]
    rfl
  · rw [hstate]
    exact Part.waiting_accepted hsend
  · rw [(sameIntake_process e batch).oracle, oracle_classifyAll hclassify]

theorem run_of_tap {S : Type u} (I : Interpretation S) {e : Engine ω (Tap σ) ρ} {t : Tap σ}
    {batches : List (List Command)} (hs : e.sink = some t) (hp : e.pending = [])
    (h : (e.run batches).error? = none) :
    ∃ stream, (e.run batches).state.sink =
        some ⟨(Sink.sendAll t.sink stream).state, t.accepted ++ stream⟩ ∧
      (Sink.sendAll t.sink stream).error? = none ∧ (∀ c ∈ stream, c.gate.isRotation = false) ∧
      I.ofCommands? e.oracle batches.flatten = some (I.execute stream) := by
  induction batches generalizing e t with
  | nil => exact ⟨[], by simpa [run] using hs, rfl, by simp, rfl⟩
  | cons batch batches ih =>
    rw [run_cons, Outcome.andThen_eq_none_iff] at h
    obtain ⟨first, hsink, hsend, hpending, hplain, hfirst, horacle⟩ := process_of_tap I hs hp h.1
    -- nothing waits behind the first call, so the others find an engine of the same kind
    obtain ⟨rest, rsink, rsend, rplain, hrest⟩ := ih hsink hpending h.2
    rw [horacle] at hrest
    refine ⟨first ++ rest, ?_, ?_, ?_, ?_⟩
    · rw [run_cons, Outcome.state_andThen h.1, rsink, Sink.state_sendAll_append hsend,
        List.append_assoc]
    · rw [Sink.error?_sendAll_append hsend]
      exact rsend
    · exact List.forall_mem_append.2 ⟨hplain, rplain⟩
    · rw [List.flatten_cons, execute_append]
      exact ofCommands?_append hfirst hrest

/-- **Meaning is preserved.**  Whatever gates and other commands stand for, and whatever the oracle
answers: when calls on a fresh engine all succeed, its sink has accepted commands without a rotation
that execute, from any state, what the commands of all batches stand for. -/
theorem run_preserves_meaning {S : Type u} (I : Interpretation S) (o : ω) (s : σ)
    (recorder : Option ρ) (batches : List (List Command))
    (hok : (run ({ oracle := o, sink := some s, recorder } : Engine ω σ ρ) batches).error? = none) :
    let e : Engine ω σ ρ := { oracle := o, sink := some s, recorder }
    (e.run batches).state.sink = some (Sink.sendAll s (e.acceptedStream batches)).state ∧
      (∀ c ∈ e.acceptedStream batches, c.gate.isRotation = false) ∧
      ∃ f, I.ofCommands? o batches.flatten = some f ∧
        ∀ x, I.execute (e.acceptedStream batches) x = f x := by
  intro e
  -- a tap before the sink writes down the stream, and the run is the same
  have hsame := run_tapped e batches
  have hok' : (e.tapped.run batches).error? = none := by
    rw [hsame] at hok
    exact hok
  obtain ⟨stream, hsink, -, hplain, hmeaning⟩ := run_of_tap I (t := { sink := s }) rfl rfl hok'
  have hstream : e.acceptedStream batches = stream := by
    rw [acceptedStream, hsink]
    rfl
  rw [hstream]
  refine ⟨?_, hplain, I.execute stream, hmeaning, fun _ => rfl⟩
  rw [hsame]
  show (e.tapped.run batches).state.sink.map Tap.sink = _
  rw [hsink]
  rfl

/-- Read as the lists of what was executed, no two different commands commute.  Two words of
different texts, one with each line terminator, are sent each in its place. -/
theorem run_preserves_meaning_free :
    let free : Interpretation (List Command) :=
      { gate := fun g q x => x ++ [.fixed g q], plain := fun c x => x ++ [c]
        plain_fixed := fun _ _ => rfl }
    let o : FunctionOracle := ⟨fun axis _ => .ok (if axis = .z then "STH\r\n" else "XH\n")⟩
    let log : CommandLog := {}
    let half : Binary64 := ⟨0x3fe0000000000000⟩
    let e : Engine FunctionOracle CommandLog OutcomeLog :=
      { oracle := o, sink := some log, recorder := none }
    let batches : List (List Command) :=
      [[.allocate ⟨0⟩, .rz half ⟨0⟩, .other "cx" [⟨0⟩, ⟨1⟩]], [.rx half ⟨0⟩, .measure ⟨0⟩]]
    (e.run batches).error? = none ∧
      e.acceptedStream batches = [.allocate ⟨0⟩, .fixed .h ⟨0⟩, .fixed .t ⟨0⟩, .fixed .s ⟨0⟩,
        .other "cx" [⟨0⟩, ⟨1⟩], .fixed .h ⟨0⟩, .fixed .x ⟨0⟩, .measure ⟨0⟩] ∧
      ∃ f, free.ofCommands? o batches.flatten = some f ∧
        ∀ x, free.execute (e.acceptedStream batches) x = f x := by
  intro free o log half e batches
  have hok : (e.run batches).error? = none := by decide
  obtain ⟨-, -, hmeaning⟩ := run_preserves_meaning free o log none batches hok
  exact ⟨hok, by decide, hmeaning⟩

end Engine

end CliffordT
