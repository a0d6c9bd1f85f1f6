import CliffordT.Proofs.Classification

/-!
# The second pass over a batch

Forwarding sends a command as it is and a rotation as the word at the head of the queue.

* `Engine.forEach_transmit` : sendings go on up to the first refusal;
* `Engine.forward_plain`, `Engine.forward_rotation` : a command is sent as its part, the gate by
  gate emission of a word included;
* `Engine.forward_rewrites` : a pass over commands that become the parts `ps` sends `Part.stream ps`
  up to the first refusal; counters, sink and queue are those of the sendings that were accepted.
-/

namespace CliffordT

namespace Tally

/-- One more for each of some gates. -/
def bumpAll (a : Tally) (gs : List FixedGate) : Tally := gs.foldl bump a

@[simp] theorem bumpAll_nil (a : Tally) : a.bumpAll [] = a := rfl

theorem bumpAll_append (a : Tally) (gs ks : List FixedGate) :
    a.bumpAll (gs ++ ks) = (a.bumpAll gs).bumpAll ks :=
  List.foldl_append

theorem count_bump (a : Tally) (g k : FixedGate) :
    (a.bump g).count k = if k = g then a.count g + 1 else a.count k := by
  rw [bump, count, get?_set]
  split <;> rfl

theorem count_bumpAll (a : Tally) (gs : List FixedGate) (k : FixedGate) :
    (a.bumpAll gs).count k = a.count k + gs.count k := by
  induction gs generalizing a with
  | nil => rfl
  | cons g gs ih =>
    have h : (a.bumpAll (g :: gs)).count k = ((a.bump g).bumpAll gs).count k := rfl
    rw [h, ih, count_bump]
    by_cases hk : k = g
    · subst hk
      rw [if_pos rfl, List.count_cons_self]
      omega
    · rw [if_neg hk, List.count_cons_of_ne (Ne.symm hk)]

end Tally

namespace Engine

open Outcome (forEach)

variable {ω σ ρ : Type} [Sink σ] {e : Engine ω σ ρ} {s : σ} {c : Command} {err : PipelineError}

/-! ### Sendings -/

/-- Send a command on its way, and count it. -/
def transmit (e : Engine ω σ ρ) (t : Sending) : Outcome (Engine ω σ ρ) :=
  match t.gate? with
  | none => e.deliver t.command
  | some g => (e.deliver t.command).andThen fun e =>
      .done { e with stats := { e.stats with emitted := e.stats.emitted.bump g } }

omit [Sink σ] in
/-- The engine when some sendings are accepted, before the sink as it is then. -/
def sent (e : Engine ω σ ρ) (s : σ) (ts : List Sending) : Engine ω σ ρ :=
  { e with
    sink := some s
    stats := { e.stats with
      forwarded := e.stats.forwarded + ts.length
      emitted := e.stats.emitted.bumpAll (ts.filterMap (·.gate?)) } }

omit [Sink σ] in
theorem sent_nil (hs : e.sink = some s) : e.sent s [] = e := by
  obtain ⟨oracle, sink, recorder, pending, live, stats⟩ := e
  cases hs
  rfl

omit [Sink σ] in
theorem sent_sent (e : Engine ω σ ρ) (s s' : σ) (ts us : List Sending) :
    (e.sent s ts).sent s' us = e.sent s' (ts ++ us) := by
  simp [sent, Tally.bumpAll_append, Nat.add_assoc]

theorem deliver_of_ok (hs : e.sink = some s) (h : (Sink.send s c).error? = none) :
    (e.deliver c).error? = none ∧
      (e.deliver c).state = e.sent (Sink.send s c).state [⟨c, none⟩] := by
  have hsend : ((Sink.send s c).map fun s => { e with sink := some s }).error? = none := h
  simp only [deliver, hs]
  rw [Outcome.error?_andThen hsend, Outcome.state_andThen hsend]
  exact ⟨rfl, rfl⟩

theorem deliver_of_error (hs : e.sink = some s) (h : (Sink.send s c).error? = some err) :
    (e.deliver c).error? = some err ∧ (e.deliver c).state = e.sent (Sink.send s c).state [] := by
  have hsend : ((Sink.send s c).map fun s => { e with sink := some s }).error? = some err := h
  simp only [deliver, hs]
  rw [Outcome.andThen_of_error hsend]
  exact ⟨h, rfl⟩

theorem transmit_of_ok (hs : e.sink = some s) {t : Sending}
    (h : (Sink.send s t.command).error? = none) :
    (e.transmit t).error? = none ∧
      (e.transmit t).state = e.sent (Sink.send s t.command).state [t] := by
  obtain ⟨c, g⟩ := t
  obtain ⟨hok, hstate⟩ := deliver_of_ok hs h
  cases g with
  | none => exact ⟨hok, hstate⟩
  | some g =>
    simp only [transmit]
    rw [Outcome.error?_andThen hok, Outcome.state_andThen hok, hstate]
    exact ⟨rfl, rfl⟩

theorem transmit_of_error (hs : e.sink = some s) {t : Sending}
    (h : (Sink.send s t.command).error? = some err) :
    (e.transmit t).error? = some err ∧
      (e.transmit t).state = e.sent (Sink.send s t.command).state [] := by
  obtain ⟨c, g⟩ := t
  obtain ⟨herr, hstate⟩ := deliver_of_error hs h
  cases g with
  | none => exact ⟨herr, hstate⟩
  | some g =>
    simp only [transmit]
    rw [Outcome.andThen_of_error herr]
    exact ⟨herr, hstate⟩

/-- Sendings go on up to the first refusal, and those before it are counted. -/
theorem forEach_transmit (hs : e.sink = some s) (ts : List Sending) :
    (forEach transmit e ts).error? = (Sink.sendAll s (ts.map (·.command))).error? ∧
      (forEach transmit e ts).state = e.sent (Sink.sendAll s (ts.map (·.command))).state
        (ts.take (Sink.accepted s (ts.map (·.command)))) := by
  -- the sink changes with each sending, so it is general in the induction
  induction ts generalizing e s with
  | nil => exact ⟨rfl, (sent_nil hs).symm⟩
  | cons t ts ih =>
    rw [Outcome.forEach_cons, List.map_cons, Sink.sendAll_cons]
    cases h : (Sink.send s t.command).error? with
    | some err =>
      obtain ⟨herr, hstate⟩ := transmit_of_error hs h
      rw [Outcome.andThen_of_error herr, Outcome.andThen_of_error h, Sink.accepted_cons_of_error h,
        List.take_zero]
      exact ⟨herr.trans h.symm, hstate⟩
    | none =>
      obtain ⟨hok, hstate⟩ := transmit_of_ok hs h
      have hsink : (e.transmit t).state.sink = some (Sink.send s t.command).state := by
        rw [hstate]
        rfl
      obtain ⟨ierr, istate⟩ := ih hsink
      rw [Outcome.error?_andThen hok, Outcome.state_andThen hok, Outcome.error?_andThen h,
        Outcome.state_andThen h, Sink.accepted_cons_of_ok h, List.take_succ_cons]
      refine ⟨ierr, ?_⟩
      rw [istate, hstate, sent_sent, List.singleton_append]

/-! ### Parts -/

/-- A command that is no rotation is sent as it is. -/
theorem forward_plain (hc : c.gate.isRotation = false) :
    e.forward c = forEach transmit e (Part.plain c).sendings := by
  have h : forEach transmit e (Part.plain c).sendings = e.deliver c :=
    Outcome.forEach_singleton (⟨c, none⟩ : Sending)
  rw [h, forward, hc]
  rfl

theorem forEach_emit (e : Engine ω σ ρ) (q : Qubit) (gs : List FixedGate) :
    forEach (emit q) e gs = forEach transmit e (Part.expansion ⟨gs⟩ q).sendings := by
  rw [Part.sendings, Outcome.forEach_map]
  rfl

/-- A rotation is sent as the word at the head of the queue. -/
theorem forward_rotation (axis : Axis) (angle : Binary64) (q : Qubit) {w : Word} {ws : List Word}
    (hp : e.pending = w :: ws) :
    e.forward (.rotation axis angle q) =
      forEach transmit { e with pending := ws } (Part.expansion w q).sendings := by
  rw [← forEach_emit]
  simp [forward, hp, Command.rotation, Gate.isRotation, Command.qubit]

theorem forward_rotation_of_targets (axis : Axis) (angle : Binary64) {qs : List Qubit} {w : Word}
    {ws : List Word} (h : qs.length ≠ 1) (hp : e.pending = w :: ws) :
    ∃ err, e.forward ⟨.rotation axis angle, qs⟩ = .fail { e with pending := ws } err := by
  unfold forward
  rw [hp]
  match qs, h with
  | [], _ => exact ⟨_, rfl⟩
  | [_], h => exact absurd rfl h
  | _ :: _ :: _, _ => exact ⟨_, rfl⟩

/-- What a command is sent as: a rotation as a word on its target, another command as it is. -/
def SentAs (c : Command) : Part → Prop
  | .plain d => c.gate.isRotation = false ∧ d = c
  | .expansion _ q => ∃ axis angle, c = .rotation axis angle q

/-- A command is sent as a part, or it fails before anything is sent.  The queue loses no more than
its head. -/
theorem forward_cases (e : Engine ω σ ρ) (c : Command) :
    ∃ ws, ws <:+ e.pending ∧ ((∃ err, e.forward c = .fail { e with pending := ws } err) ∨
      ∃ x, SentAs c x ∧ e.forward c = forEach transmit { e with pending := ws } x.sendings) := by
  obtain ⟨gate, targets⟩ := c
  -- only a rotation takes from the queue, and it does so whether it is sent or not
  by_cases hc : gate.isRotation = true
  · cases gate with
    | rotation axis angle =>
      cases hp : e.pending with
      | nil =>
        have he : { e with pending := [] } = e := by rw [← hp]
        refine ⟨[], List.suffix_rfl, .inl ⟨.queueUnderflow, ?_⟩⟩
        rw [he, forward, if_pos hc, hp]
      | cons w ws =>
        refine ⟨ws, List.suffix_cons w ws, ?_⟩
        by_cases hlen : targets.length = 1
        · obtain ⟨q, rfl⟩ := List.length_eq_one_iff.1 hlen
          exact .inr ⟨.expansion w q, ⟨axis, angle, rfl⟩, forward_rotation axis angle q hp⟩
        · exact .inl (forward_rotation_of_targets axis angle hlen hp)
    | _ => cases hc
  · rw [Bool.not_eq_true] at hc
    exact ⟨e.pending, List.suffix_rfl, .inr ⟨.plain ⟨gate, targets⟩, ⟨hc, rfl⟩, forward_plain hc⟩⟩

theorem forward_sends {x : Part} {ws : List Word} (hs : e.sink = some s)
    (hx : e.forward c = forEach transmit { e with pending := ws } x.sendings) :
    (e.forward c).error? = (Sink.sendAll s x.commands).error? ∧
      (e.forward c).state = ({ e with pending := ws } : Engine ω σ ρ).sent
        (Sink.sendAll s x.commands).state (x.sendings.take (Sink.accepted s x.commands)) := by
  rw [hx, ← Part.map_command_sendings]
  exact forEach_transmit (e := { e with pending := ws }) hs x.sendings

/-! ### Batches -/

/-- What a pass over the commands `cs` leaves that become the parts `ps`, with the words `stale`
behind theirs in the queue: what the sink makes of the stream is the result, the sendings that were
accepted are counted, and the words of the parts behind them wait. -/
structure Forwards (e : Engine ω σ ρ) (s : σ) (cs : List Command) (ps : List Part)
    (stale : List Word) : Prop where
  error : (forEach forward e cs).error? = (Sink.sendAll s (ps.flatMap Part.commands)).error?
  state : (forEach forward e cs).state =
    { e.sent (Sink.sendAll s (ps.flatMap Part.commands)).state
        ((Part.stream ps).take (Sink.accepted s (ps.flatMap Part.commands))) with
      pending := Part.waiting ps (Sink.accepted s (ps.flatMap Part.commands)) ++ stale }

theorem Forwards.cons {x : Part} {cs : List Command} {ps : List Part} {stale : List Word}
    (hs : e.sink = some s)
    (hx : e.forward c =
      forEach transmit { e with pending := Part.wordsOf ps ++ stale } x.sendings)
    (ih : ∀ (e : Engine ω σ ρ) (s : σ), e.sink = some s →
      e.pending = Part.wordsOf ps ++ stale → Forwards e s cs ps stale) :
    Forwards e s (c :: cs) (x :: ps) stale := by
  obtain ⟨herror, hstate⟩ := forward_sends hs hx
  have hlen : x.sendings.length = x.commands.length := by
    rw [← Part.map_command_sendings, List.length_map]
  cases h : (Sink.sendAll s x.commands).error? with
  | some err =>
    -- the part is refused: nothing behind it is reached, and the words behind it wait
    rw [h] at herror
    have hsend := Sink.sendAll_append_of_error h (ps.flatMap Part.commands)
    have hn := Sink.accepted_append_of_error h (ps.flatMap Part.commands)
    have hlt := Sink.accepted_lt h
    have hrun := Outcome.forEach_cons_of_error herror cs
    constructor
    · rw [hrun, List.flatMap_cons, hsend, herror, h]
    · rw [hrun, List.flatMap_cons, hsend, hn, hstate, Part.stream_cons,
        List.take_append_of_le_length (by omega), Part.waiting, if_pos (by omega)]
      rfl
  | none =>
    -- the part is sent in full, so the pass goes on with the sink and the queue that it leaves
    rw [h] at herror
    have hn := Sink.accepted_append h (ps.flatMap Part.commands)
    rw [Sink.accepted_of_ok h, ← hlen, List.take_length] at hstate
    have hsink : (e.forward c).state.sink = some (Sink.sendAll s x.commands).state := by
      rw [hstate]
      rfl
    have hpending : (e.forward c).state.pending = Part.wordsOf ps ++ stale := by
      rw [hstate]
      rfl
    obtain ⟨ierror, istate⟩ := ih _ _ hsink hpending
    constructor
    · rw [Outcome.forEach_cons, Outcome.error?_andThen herror, List.flatMap_cons,
        Sink.error?_sendAll_append h, ierror]
    · rw [Outcome.forEach_cons, Outcome.state_andThen herror, List.flatMap_cons,
        Sink.state_sendAll_append h, hn, istate, hstate, ← hlen, Part.stream_cons,
        List.take_length_add_append, Part.waiting, if_neg (by omega), Nat.add_sub_cancel_left,
        ← sent_sent _ (Sink.sendAll s x.commands).state]
      rfl

/-- A pass over a batch sends what its commands become, up to the first refusal. -/
theorem forward_rewrites {cs : List Command} {ws stale : List Word} {ps : List Part}
    (h : Rewrites cs ws ps) (hs : e.sink = some s) (hp : e.pending = ws ++ stale) :
    Forwards e s cs ps stale := by
  induction h generalizing e s with
  | nil =>
    refine ⟨rfl, ?_⟩
    obtain ⟨oracle, sink, recorder, pending, live, stats⟩ := e
    cases hs
    cases hp
    rfl
  | plain hc h ih =>
    refine Forwards.cons hs ?_ fun e s hs hp => ih hs (by rw [hp, h.wordsOf_eq])
    rw [h.wordsOf_eq, ← hp]
    exact forward_plain hc
  | rotation axis angle q w h ih =>
    refine Forwards.cons hs ?_ fun e s hs hp => ih hs (by rw [hp, h.wordsOf_eq])
    rw [h.wordsOf_eq]
    exact forward_rotation axis angle q hp

end Engine

end CliffordT
