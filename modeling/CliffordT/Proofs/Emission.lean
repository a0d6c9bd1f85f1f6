import CliffordT.Proofs.Deliveries
import CliffordT.Proofs.OperatorText
import CliffordT.Proofs.OracleCalls
import Mathlib.Algebra.GroupWithZero.Nat
import Mathlib.Data.List.Count

/-!
# What is counted as sent

An engine counts what its sinks accept, and counts the gates of words for the alphabet, too.

* `Tally.get?_bumpAll`, `Tally.total_bumpAll` : what counting gates makes of a tally;
* `Engine.Balanced` : the counters are the numbers of deliveries, of all kinds and gate by gate;
* `Exchange.letters` : how often the letter of a gate stands in an answer;
* `Engine.Spelled` : the gates that were emitted are the letters of the answers;
* `Engine.emission_history` : the counters are balanced after any uses, and the gates are spelled
  out by the answers if all uses succeed and there is a sink from the first one on.
-/

namespace CliffordT

open Outcome (forEach)

/-! ### Tallies -/

namespace Tally

/-- Counting gates makes entries for those that occur. -/
theorem get?_bumpAll (a : Tally) (gs : List FixedGate) (k : FixedGate) :
    (a.bumpAll gs).get? k = if gs.count k = 0 then a.get? k else some (a.count k + gs.count k) := by
  induction gs generalizing a with
  | nil => rfl
  | cons g gs ih =>
    have h : (a.bumpAll (g :: gs)).get? k = ((a.bump g).bumpAll gs).get? k := rfl
    rw [h, ih, count_bump, bump, get?_set]
    by_cases hk : k = g
    · subst hk
      rw [if_pos rfl, if_pos rfl, List.count_cons_self, if_neg (Nat.succ_ne_zero _)]
      split
      · rename_i hzero
        rw [hzero]
      · rw [Nat.add_assoc, Nat.add_comm 1]
    · rw [if_neg hk, if_neg hk, List.count_cons_of_ne (Ne.symm hk)]

theorem total_bump (a : Tally) (g : FixedGate) : (a.bump g).total = a.total + 1 := by
  simp only [total, FixedGate.all, List.foldr_cons, List.foldr_nil, count_bump]
  cases g <;> simp <;> omega

theorem total_bumpAll (a : Tally) (gs : List FixedGate) :
    (a.bumpAll gs).total = a.total + gs.length := by
  induction gs generalizing a with
  | nil => rfl
  | cons g gs ih =>
    have h : (a.bumpAll (g :: gs)).total = ((a.bump g).bumpAll gs).total := rfl
    rw [h, ih, total_bump, List.length_cons]
    omega

end Tally

/-! ### Deliveries -/

namespace Engine

variable {ω σ ρ : Type} {e : Engine ω σ ρ} {ds : List Delivery}

/-- The counters are the numbers of the deliveries `ds`. -/
structure Balanced (e : Engine ω σ ρ) (ds : List Delivery) : Prop where
  forwarded : e.stats.forwarded = ds.length
  /-- A gate has an entry if and only if it was emitted, and this is how often. -/
  emitted : ∀ g, e.stats.emitted.get? g =
    if ds.countP (·.gate? == some g) = 0 then none else some (ds.countP (·.gate? == some g))
  tCount : e.stats.tCount = ds.countP (·.gate? == some .t)
  /-- Every delivery is a gate that was emitted, or a command that is no rotation. -/
  total : e.stats.forwarded =
    e.stats.emittedTotal + ds.countP fun d => !d.origin.gate.isRotation

theorem Counted.balanced (h : Counted e ds) : Balanced e ds := by
  have hcount : ∀ g, (ds.filterMap Delivery.gate?).count g = ds.countP (·.gate? == some g) :=
    fun g => List.count_filterMap
  have hrotations : (ds.filterMap Delivery.gate?).length =
      ds.countP fun d => d.origin.gate.isRotation := by
    rw [List.length_filterMap_eq_countP]
    refine List.countP_congr fun d hd => ?_
    rw [(h.genuine d hd).isSome_gate?]
  refine ⟨h.forwarded, fun g => ?_, ?_, ?_⟩
  · rw [h.emitted, Tally.get?_bumpAll, hcount]
    split
    · cases g <;> rfl
    · cases g <;> exact congrArg some (Nat.zero_add _)
  · rw [Stats.tCount, h.emitted, Tally.count_bumpAll, hcount]
    exact Nat.zero_add _
  -- a delivery is emitted if and only if it belongs to a rotation
  · have hsplit := List.length_eq_countP_add_countP (l := ds) fun d => d.origin.gate.isRotation
    have hplain : ds.countP (fun d => decide ¬d.origin.gate.isRotation = true) =
        ds.countP fun d => !d.origin.gate.isRotation :=
      List.countP_congr (by simp)
    have hzero : ({} : Tally).total = 0 := rfl
    rw [h.forwarded, Stats.emittedTotal, h.emitted, Tally.total_bumpAll, hrotations, hzero,
      Nat.zero_add, hsplit, hplain]

end Engine

/-! ### Letters -/

namespace Exchange

/-- How often the letter of a gate stands in an answer. -/
def letters (g : FixedGate) (x : Exchange) : Nat :=
  match x.answer with
  | .ok raw => raw.toList.count g.symbol
  | .error _ => 0

theorem letters_eq {x : Exchange} {w : Word}
    (h : x.word? = some w) (g : FixedGate) : x.letters g = w.gates.count g := by
  obtain ⟨q, answer⟩ := x
  cases answer with
  | error err => cases h
  | ok raw =>
    cases hw : Word.ofOperatorText raw with
    | error cause => simp [word?, hw, Except.toOption] at h
    | ok word =>
      obtain rfl : word = w := by simpa [word?, hw, Except.toOption] using h
      exact (Word.count_gates hw g).symm

theorem sum_letters {xs : List Exchange}
    (h : ∀ x ∈ xs, x.word?.isSome) (g : FixedGate) :
    (xs.map (letters g)).sum = ((xs.filterMap word?).flatMap Word.gates).count g := by
  induction xs with
  | nil => rfl
  | cons x xs ih =>
    obtain ⟨hx, hxs⟩ := List.forall_mem_cons.1 h
    obtain ⟨w, hw⟩ := Option.isSome_iff_exists.1 hx
    rw [List.map_cons, List.sum_cons, ih hxs, letters_eq hw, List.filterMap_cons_some hw,
      List.flatMap_cons, List.count_append]

end Exchange

/-! ### Uses that succeed -/

theorem Part.filterMap_gate?_stream (ps : List Part) :
    (stream ps).filterMap (·.gate?) = (wordsOf ps).flatMap Word.gates := by
  induction ps with
  | nil => rfl
  | cons x ps ih =>
    rw [stream_cons, List.filterMap_append, ih]
    cases x with
    | plain c => rfl
    | expansion w q =>
      have hgates : (expansion w q).sendings.filterMap (·.gate?) = w.gates := by
        simp [sendings, List.filterMap_map]
      rw [hgates, wordsOf_expansion, List.flatMap_cons]

theorem filterMap_question?_eq {cs : List Command}
    (h : ∀ c ∈ cs, c.gate.isRotation = true → ∃ axis angle q, c = .rotation axis angle q) :
    cs.filterMap Command.question? = cs.filterMap fun c => c.gate.asRotation? := by
  refine List.filterMap_congr fun c hc => ?_
  by_cases hrot : c.gate.isRotation = true
  · obtain ⟨axis, angle, q, rfl⟩ := h c hc hrot
    rfl
  · rw [Bool.not_eq_true] at hrot
    rw [Command.question?_of_plain hrot]
    obtain ⟨gate, targets⟩ := c
    cases gate with
    | rotation axis angle => cases hrot
    | _ => rfl

theorem length_filterMap_asRotation? (cs : List Command) :
    (cs.filterMap fun c => c.gate.asRotation?).length = rotationCount cs := by
  rw [List.length_filterMap_eq_countP, rotationCount]
  refine List.countP_congr fun c _ => ?_
  obtain ⟨gate, targets⟩ := c
  cases gate <;> simp [Gate.asRotation?, Gate.isRotation]

namespace Engine

variable {ω σ ρ : Type} [Oracle ω] [Sink σ] [Recorder ρ] {e e' e'' : Engine ω σ ρ} {s : σ}
  {vs vs' : List (Visit ω σ ρ)} {cs cs' : List Command}

/-- On the way from `e` to `e'`, with the visits `vs`, the commands `cs` were all classified, and
all the words that were pushed for them were sent in full. -/
structure SentAll (e e' : Engine ω σ ρ) (vs : List (Visit ω σ ρ)) (cs : List Command) : Prop where
  sink : e'.sink.isSome
  pending : e'.pending = []
  emitted : e'.stats.emitted =
    e.stats.emitted.bumpAll ((vs.flatMap Visit.pushed).flatMap Word.gates)
  /-- Every rotation was visited, with one target. -/
  questions : (vs.filterMap fun v => v.command.question?) =
    cs.filterMap fun c => c.gate.asRotation?
  /-- It has a word. -/
  words : (vs.flatMap Visit.pushed).length = (vs.filterMap fun v => v.command.question?).length

omit [Sink σ] in
theorem SentAll.trans (h : SentAll e e' vs cs) (h' : SentAll e' e'' vs' cs') :
    SentAll e e'' (vs ++ vs') (cs ++ cs') := by
  refine ⟨h'.sink, h'.pending, ?_, ?_, ?_⟩
  · rw [h'.emitted, h.emitted, ← Tally.bumpAll_append, List.flatMap_append, List.flatMap_append]
  · rw [List.filterMap_append, h.questions, h'.questions, List.filterMap_append]
  · rw [List.flatMap_append, List.filterMap_append, List.length_append, List.length_append,
      h.words, h'.words]

theorem sentAll_process {batch : List Command} (hs : e.sink = some s) (hp : e.pending = [])
    (h : (e.process batch).error? = none) :
    SentAll e (e.process batch).state (e.visited batch) batch := by
  have hok := classify_ok_of_process_ok h
  obtain ⟨ps, hps⟩ := exists_rewrites_of_classifyAll hok
  have hsend := (process_rewrites hs hok hps).1.symm.trans h
  have hstate := process_of_accepted hs hok hps hsend
  have hlen := length_found hok
  -- the queue has the words of this batch and no other
  rw [hp, List.nil_append, List.take_of_length_le (by omega)] at hps
  rw [hp, List.nil_append, List.drop_of_length_le (by omega)] at hstate
  have hquestions : ((e.visited batch).filterMap fun v => v.command.question?) =
      batch.filterMap fun c => c.gate.asRotation? := by
    have hvisited := visited_of_ok hok
    rw [← filterMap_question?_eq (targets_of_classifyAll hok)]
    nth_rewrite 2 [← hvisited]
    rw [List.filterMap_map]
    rfl
  constructor
  · rw [hstate]
    rfl
  · rw [hstate]
  · rw [hstate, flatMap_pushed_visited, ← hps.wordsOf_eq, ← Part.filterMap_gate?_stream,
      ← (sameOutput_classifyAll e batch).emitted]
    rfl
  · exact hquestions
  · rw [hquestions, flatMap_pushed_visited, hlen, length_filterMap_asRotation?]

theorem sentAll_useAll {us : List (Use σ)} (hs : e.sink.isSome) (hp : e.pending = [])
    (h : (forEach use e us).error? = none) :
    SentAll e (e.afterUses us) (e.visits us) (Use.batches us).flatten := by
  induction us generalizing e with
  | nil => exact ⟨hs, hp, rfl, rfl, rfl⟩
  | cons u us ih =>
    rw [Outcome.forEach_cons, Outcome.andThen_eq_none_iff] at h
    cases u with
    | process batch =>
      obtain ⟨s, hs⟩ := Option.isSome_iff_exists.1 hs
      have hfirst := sentAll_process hs hp h.1
      exact hfirst.trans (ih hfirst.sink hfirst.pending h.2)
    | setSink s =>
      have hlater := ih (e := e.setSink s) rfl hp h.2
      exact ⟨hlater.sink, hlater.pending, hlater.emitted, hlater.questions, hlater.words⟩

/-! ### All uses so far -/

omit [Oracle ω] [Sink σ] [Recorder ρ] in
/-- The gates that were emitted are spelled out by the answers `xs` that the oracle gave for the
rotations of the commands `cs`. -/
structure Spelled (e : Engine ω σ ρ) (cs : List Command) (xs : List Exchange) : Prop where
  /-- Each rotation has been answered. -/
  questions : xs.map Exchange.question = cs.filterMap fun c => c.gate.asRotation?
  /-- The answers are words. -/
  words : ∀ x ∈ xs, x.word?.isSome
  emitted : ∀ g, e.stats.emitted.count g = (xs.map (Exchange.letters g)).sum
  tCount : e.stats.tCount = ((xs.filterMap Exchange.word?).map Word.tCount).sum

omit [Sink σ] in
theorem SentAll.spelled {xs : List Exchange} (h : SentAll e e' vs cs)
    (hfresh : e.stats.emitted = {}) (hasks : Asks e' vs xs) : Spelled e' cs xs := by
  -- as many words were pushed as questions were asked, so no answer is without one
  have hwords : ∀ x ∈ xs, x.word?.isSome := by
    have hlen := h.words
    rw [hasks.pushed, ← hasks.questions, List.length_map, List.length_filterMap_eq_countP] at hlen
    exact List.countP_eq_length.1 hlen
  have hcount : ∀ g, e'.stats.emitted.count g =
      ((xs.filterMap Exchange.word?).flatMap Word.gates).count g := by
    intro g
    rw [h.emitted, hfresh, hasks.pushed, Tally.count_bumpAll]
    cases g <;> exact Nat.zero_add _
  refine ⟨hasks.questions.trans h.questions, hwords, fun g => ?_, ?_⟩
  · rw [hcount, Exchange.sum_letters hwords]
  · rw [Stats.tCount, hcount, List.count_flatMap]
    rfl

/-- **What is counted as sent is what the sinks have accepted.**  After any uses, whatever their
results, the counters are the numbers of deliveries: in all, and of the gates that stand in the word
of a rotation, gate by gate.  If all uses succeed and there is a sink from the first one on, each
gate was emitted as often as its letter stands in the answers to the rotations. -/
theorem emission_history (o : ω) (recorder : Option ρ) (us : List (Use σ)) :
    let start : Engine ω σ ρ := { oracle := o, recorder }
    let tapped : Engine ω (Tap σ) ρ := { oracle := o, recorder }
    let tappedUses := us.map (Use.map Tap.on)
    let ds := tapped.deliveries tappedUses
    let e := start.afterUses us
    e = mapParts id Tap.sink (tapped.afterUses tappedUses) ∧
      start.sinks us = (tapped.sinks tappedUses).map Tap.sink ∧
      (tapped.sinks tappedUses).flatMap Tap.accepted = ds.map Delivery.sent ∧
      (∀ d ∈ ds, d.Genuine ∧ ∃ batch ∈ Use.batches us, d.origin ∈ batch) ∧
      Balanced e ds ∧
      ∀ s rest, us = .setSink s :: rest → (forEach use start us).error? = none →
        Spelled e (Use.batches us).flatten (dialogue o recorder us) := by
  intro start tapped tappedUses ds e
  have hparts : SameParts (id : ω → ω) (Tap.sink (σ := σ)) := .of_send fun _ _ => rfl
  -- the tapped engine is the engine with sinks that write down what they accept
  have huses : tappedUses.map (Use.map Tap.sink) = us :=
    (Use.map_map Tap.on Tap.sink us).trans (Use.map_id us)
  have hstate := afterUses_mapParts tapped hparts tappedUses
  have hsinks := sinks_mapParts (e := tapped) hparts tappedUses
  rw [huses] at hstate hsinks
  have hcounted := counted_afterUses o recorder tappedUses
  have hbalanced := hcounted.balanced
  refine ⟨hstate, hsinks, accepted_sinks tapped us, fun d hd => ⟨hcounted.genuine d hd, ?_⟩, ?_,
    ?_⟩
  · rw [← Use.batches_map Tap.on us]
    exact exists_of_mem_deliveries hd
  · show Balanced (start.afterUses us) ds
    rw [show start.afterUses us = _ from hstate]
    exact ⟨hbalanced.forwarded, hbalanced.emitted, hbalanced.tCount, hbalanced.total⟩
  · rintro s rest rfl hok
    have hasks := (asks_afterUses o recorder (.setSink s :: rest)).2
    have hsent : SentAll (start.setSink s) e (start.visits (.setSink s :: rest))
        (Use.batches rest).flatten :=
      sentAll_useAll rfl rfl ((Outcome.andThen_eq_none_iff.1 hok).2)
    exact hsent.spelled rfl hasks

/-- Two sinks, and a gate of the alphabet that was there before: it is forwarded but not emitted. -/
theorem emission_history_two_sinks :
    let o : FunctionOracle := ⟨fun axis _ => .ok (if axis = .z then "TT\n" else "TH")⟩
    let start : Engine FunctionOracle CommandLog OutcomeLog := { oracle := o }
    let half : Binary64 := ⟨0x3fe0000000000000⟩
    let us : List (Use CommandLog) := [.setSink {},
      .process [.allocate ⟨0⟩, .fixed .t ⟨0⟩, .rz half ⟨0⟩, .rx half ⟨0⟩], .setSink {},
      .process [.rz half ⟨0⟩]]
    let e := start.afterUses us
    e.stats.forwarded = 8 ∧ e.stats.emittedTotal = 6 ∧ e.stats.tCount = 5 ∧
      (forEach use start us).error? = none ∧
      Spelled e (Use.batches us).flatten (dialogue o start.recorder us) := by
  intro o start half us e
  have hok : (forEach use start us).error? = none := by decide
  obtain ⟨-, -, -, -, -, hspelled⟩ := emission_history o (none : Option OutcomeLog) us
  exact ⟨by decide, by decide, by decide, hok, hspelled _ _ rfl hok⟩

end Engine

end CliffordT
