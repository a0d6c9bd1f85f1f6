import CliffordT.Proofs.Parts
import CliffordT.Proofs.Tap
import Mathlib.Data.List.Basic

/-!
# What the sinks accept

Between an engine and each of its sinks lies a tap, which writes down what the sink accepts.

* `Delivery` : a command that a sink has accepted, with the command that it was sent for;
* `Engine.delivered`, `Engine.deliveredAll` : what is written down while a command, or a batch, is
  forwarded;
* `Engine.deliveries_induction` : what is preserved where nothing is sent, and by every command that
  is forwarded, holds after any uses;
* `Engine.sinks` : all the sinks that an engine has had; `Engine.accepted_sinks` : they have
  accepted the deliveries, in order;
* `Engine.Counted` : the counters are those of the deliveries (`Engine.counted_afterUses`).
-/

namespace CliffordT

open Outcome (forEach)

/-- A command that a sink has accepted. -/
structure Delivery where
  /-- The command of the batch that was being forwarded. -/
  origin : Command
  /-- The command that the sink has accepted for it. -/
  sent : Command
deriving DecidableEq

namespace Delivery

/-- The gate that was emitted, if the delivery belongs to the word of a rotation. -/
def gate? (d : Delivery) : Option FixedGate :=
  match d.origin.gate, d.sent.gate with
  | .rotation _ _, .fixed g => some g
  | _, _ => none

/-- A rotation has delivered a gate on its target, another command itself. -/
def Genuine (d : Delivery) : Prop :=
  (d.origin.gate.isRotation = false ∧ d.sent = d.origin) ∨
    ∃ axis angle g q, d.origin = .rotation axis angle q ∧ d.sent = .fixed g q

theorem Genuine.isSome_gate? {d : Delivery} (h : d.Genuine) :
    d.gate?.isSome = d.origin.gate.isRotation := by
  obtain ⟨origin, sent⟩ := d
  obtain ⟨hplain, -⟩ | ⟨axis, angle, g, q, horigin, hsent⟩ := h
  · obtain ⟨gate, targets⟩ := origin
    cases gate with
    | rotation axis angle => cases hplain
    | _ => rfl
  · cases horigin
    cases hsent
    rfl

end Delivery

/-- A tap before a sink. -/
def Tap.on {σ : Type} (s : σ) : Tap σ := { sink := s }

namespace Engine

variable {ω σ ρ : Type} [Sink σ] {e : Engine ω (Tap σ) ρ} {t : Tap σ} {c : Command}

/-! ### One command -/

omit [Sink σ] in
/-- What the tap before the present sink has written down. -/
def tape (e : Engine ω (Tap σ) ρ) : List Command :=
  match e.sink with
  | some t => t.accepted
  | none => []

/-- What the sink accepts while a command is forwarded. -/
def delivered (e : Engine ω (Tap σ) ρ) (c : Command) : List Delivery :=
  ((e.forward c).state.tape.drop e.tape.length).map (Delivery.mk c)

/-- What a sink has accepted while a command is forwarded, the sendings `ts`, is written down and
counted. -/
structure Sends (e : Engine ω (Tap σ) ρ) (c : Command) (ts : List Sending) : Prop where
  sink : (e.forward c).state.sink.isSome
  tape : (e.forward c).state.tape = e.tape ++ ts.map (·.command)
  forwarded : (e.forward c).state.stats.forwarded = e.stats.forwarded + ts.length
  emitted : (e.forward c).state.stats.emitted = e.stats.emitted.bumpAll (ts.filterMap (·.gate?))
  genuine : ∀ t ∈ ts, (Delivery.mk c t.command).gate? = t.gate? ∧
    (Delivery.mk c t.command).Genuine

theorem SentAs.genuine {x : Part} (h : SentAs c x) :
    ∀ t ∈ x.sendings, (Delivery.mk c t.command).gate? = t.gate? ∧
      (Delivery.mk c t.command).Genuine := by
  intro t ht
  cases x with
  | plain d =>
    obtain ⟨hc, rfl⟩ := h
    obtain rfl := List.mem_singleton.1 ht
    refine ⟨?_, .inl ⟨hc, rfl⟩⟩
    obtain ⟨gate, targets⟩ := d
    cases gate with
    | rotation axis angle => cases hc
    | _ => rfl
  | expansion w q =>
    obtain ⟨axis, angle, rfl⟩ := h
    obtain ⟨g, -, rfl⟩ := List.mem_map.1 ht
    exact ⟨rfl, .inr ⟨axis, angle, g, q, rfl, rfl⟩⟩

theorem exists_sends (hs : e.sink = some t) (c : Command) : ∃ ts, Sends e c ts := by
  obtain ⟨ws, -, ⟨err, hfail⟩ | ⟨x, hx, hsend⟩⟩ := forward_cases e c
  -- nothing is sent
  · have htape : ({ e with pending := ws } : Engine ω (Tap σ) ρ).tape = e.tape := rfl
    refine ⟨[], ?_, ?_, ?_, ?_, by simp⟩
    all_goals rw [hfail, Outcome.state_fail]
    · exact Option.isSome_iff_exists.2 ⟨t, hs⟩
    · rw [htape, List.map_nil, List.append_nil]
    · rfl
    · rfl
  -- the sendings of the part are accepted up to the first refusal
  · obtain ⟨-, hstate⟩ := forward_sends hs hsend
    obtain ⟨-, htap⟩ := Tap.sendAll_eq t x.commands
    have htape : e.tape = t.accepted := by rw [tape, hs]
    refine ⟨x.sendings.take (Sink.accepted t x.commands), ?_, ?_, ?_, ?_, ?_⟩
    · rw [hstate]
      rfl
    · rw [hstate, htape, List.map_take, Part.map_command_sendings, Tap.accepted_eq]
      show (Sink.sendAll t x.commands).state.accepted = _
      rw [htap]
    · rw [hstate]
      rfl
    · rw [hstate]
      rfl
    · exact fun t ht => hx.genuine t (List.mem_of_mem_take ht)

theorem Sends.delivered_eq {ts : List Sending} (h : Sends e c ts) :
    e.delivered c = ts.map fun t => ⟨c, t.command⟩ := by
  rw [delivered, h.tape, List.drop_left, List.map_map]
  rfl

/-! ### Batches -/

section Process

variable [Oracle ω] [Recorder ρ] {P : Engine ω (Tap σ) ρ → List Delivery → Prop}
  {ds : List Delivery}

/-- What the sink accepts of a batch; of one that is not classified, nothing. -/
def deliveredAll (e : Engine ω (Tap σ) ρ) (batch : List Command) : List Delivery :=
  match (forEach classify e batch).error?, e.sink with
  | none, some _ => Outcome.collect forward delivered (forEach classify e batch).state batch
  | _, _ => []

/-- What is preserved where nothing is sent, and by every command that is forwarded, a batch
preserves, whatever its result. -/
theorem deliveredAll_induction
    (hsame : ∀ e e' ds, SameOutput e e' → P e ds → P e' ds)
    (hforward : ∀ e t c ds, e.sink = some t → P e ds → P (e.forward c).state (ds ++ e.delivered c))
    (h : P e ds) (batch : List Command) :
    P (e.process batch).state (ds ++ e.deliveredAll batch) := by
  have houtput := sameOutput_classifyAll e batch
  have hfirst := hsame e _ ds houtput h
  cases hok : (forEach classify e batch).error? with
  | some err =>
    rw [process_of_error hok, deliveredAll, hok, List.append_nil]
    exact hfirst
  | none =>
    cases hs : e.sink with
    | none =>
      rw [(process_of_terminal hs hok).1, deliveredAll, hok, hs, List.append_nil]
      exact hsame (forEach classify e batch).state _ ds ⟨rfl, rfl, rfl⟩ hfirst
    | some t =>
      -- the sink stays one, so each command of the second pass is forwarded before it
      have hstep : ∀ e c ds, (e.sink.isSome ∧ P e ds) →
          (e.forward c).state.sink.isSome ∧ P (e.forward c).state (ds ++ e.delivered c) := by
        rintro e c ds ⟨hsome, h⟩
        obtain ⟨t, ht⟩ := Option.isSome_iff_exists.1 hsome
        obtain ⟨ts, hts⟩ := exists_sends ht c
        exact ⟨hts.sink, hforward e t c ds ht h⟩
      have hsome : (forEach classify e batch).state.sink.isSome := by
        rw [houtput.sink, hs]
        rfl
      rw [(process_of_sink hs hok).1, deliveredAll, hok, hs]
      exact (Outcome.collect_induction (P := fun e ds => e.sink.isSome ∧ P e ds) hstep
        ⟨hsome, hfirst⟩ batch).2

theorem tape_process (e : Engine ω (Tap σ) ρ) (batch : List Command) :
    (e.process batch).state.tape = e.tape ++ (e.deliveredAll batch).map Delivery.sent := by
  have hstart : e.tape = e.tape ++ ([] : List Delivery).map Delivery.sent :=
    (List.append_nil _).symm
  refine deliveredAll_induction (P := fun e' ds => e'.tape = e.tape ++ ds.map Delivery.sent)
    (fun e' e'' ds hsame h => ?_) (fun e' t c ds ht h => ?_) hstart batch
  · rw [← h, tape, tape, hsame.sink]
  · obtain ⟨ts, hts⟩ := exists_sends ht c
    rw [hts.tape, h, hts.delivered_eq, List.map_append, List.map_map, List.append_assoc]
    rfl

/-! ### Uses -/

/-- What the sinks accept during some uses, in order. -/
def deliveries (e : Engine ω (Tap σ) ρ) (us : List (Use (Tap σ))) : List Delivery :=
  e.history deliveredAll us

/-- What is preserved where nothing is sent, by every command that is forwarded, and by a new sink,
holds after any uses. -/
theorem deliveries_induction
    (hsame : ∀ e e' ds, SameOutput e e' → P e ds → P e' ds)
    (hforward : ∀ e t c ds, e.sink = some t → P e ds → P (e.forward c).state (ds ++ e.delivered c))
    (hsink : ∀ e ds t, P e ds → P (e.setSink t) ds) (h : P e ds) (us : List (Use (Tap σ))) :
    P (e.afterUses us) (ds ++ e.deliveries us) :=
  history_induction (fun _ _ batch h => deliveredAll_induction hsame hforward h batch) hsink h us

theorem exists_of_mem_deliveries {us : List (Use (Tap σ))} {d : Delivery}
    (h : d ∈ e.deliveries us) : ∃ batch ∈ Use.batches us, d.origin ∈ batch := by
  obtain ⟨batch, hbatch, e', hd⟩ := exists_of_mem_history h
  refine ⟨batch, hbatch, ?_⟩
  unfold deliveredAll at hd
  split at hd
  · obtain ⟨c, hc, e'', hd⟩ := Outcome.exists_of_mem_collect hd
    obtain ⟨sent, -, rfl⟩ := List.mem_map.1 hd
    exact hc
  · cases hd

/-- All the sinks that an engine has had after some uses, each as it was when it was replaced, and
the present one at the end. -/
def sinks {σ : Type} [Sink σ] (e : Engine ω σ ρ) : List (Use σ) → List σ
  | [] => e.sink.toList
  | .process batch :: us => sinks (e.process batch).state us
  | .setSink s :: us => e.sink.toList ++ sinks (e.setSink s) us

omit [Sink σ] [Oracle ω] [Recorder ρ] in
theorem flatMap_accepted_sink (e : Engine ω (Tap σ) ρ) :
    e.sink.toList.flatMap Tap.accepted = e.tape := by
  cases hs : e.sink <;> simp [tape, hs]

/-- The sinks have accepted the deliveries, in order. -/
theorem accepted_sinks (e : Engine ω (Tap σ) ρ) (us : List (Use σ)) :
    (e.sinks (us.map (Use.map Tap.on))).flatMap Tap.accepted =
      e.tape ++ (e.deliveries (us.map (Use.map Tap.on))).map Delivery.sent := by
  induction us generalizing e with
  | nil => exact (flatMap_accepted_sink e).trans (List.append_nil _).symm
  | cons u us ih =>
    cases u with
    | process batch =>
      have hlater := ih (e.process batch).state
      rw [tape_process, List.append_assoc, ← List.map_append] at hlater
      exact hlater
    | setSink s =>
      -- the tape of the new sink is empty
      have hlater := ih (e.setSink (Tap.on s))
      rw [List.map_cons, Use.map, sinks, List.flatMap_append, flatMap_accepted_sink, hlater]
      rfl

theorem sinks_mapParts {ω' σ' : Type} [Oracle ω'] [Sink σ'] {e : Engine ω σ ρ} {fo : ω → ω'}
    {fs : σ → σ'} (hparts : SameParts fo fs) (us : List (Use σ)) :
    (mapParts fo fs e).sinks (us.map (Use.map fs)) = (e.sinks us).map fs := by
  have hpresent : ∀ e : Engine ω σ ρ,
      (mapParts fo fs e).sink.toList = e.sink.toList.map fs := by
    intro e
    cases hs : e.sink <;> simp [mapParts, hs]
  -- a sink is done when another one takes its place, or at the end
  induction us generalizing e with
  | nil => exact hpresent e
  | cons u us ih =>
    cases u with
    | process batch =>
      have hprocess := process_mapParts e hparts batch
      rw [List.map_cons, Use.map, sinks, hprocess]
      exact ih
    | setSink s =>
      rw [List.map_cons, Use.map, sinks, sinks, List.map_append, hpresent]
      exact congrArg (_ ++ ·) (ih (e := e.setSink s))

end Process

/-! ### Counters -/

omit [Sink σ] in
/-- The counters are those of the deliveries `ds`. -/
structure Counted (e : Engine ω σ ρ) (ds : List Delivery) : Prop where
  forwarded : e.stats.forwarded = ds.length
  emitted : e.stats.emitted = ({} : Tally).bumpAll (ds.filterMap Delivery.gate?)
  genuine : ∀ d ∈ ds, d.Genuine

theorem Counted.forward {ds : List Delivery} (h : Counted e ds) (hs : e.sink = some t)
    (c : Command) : Counted (e.forward c).state (ds ++ e.delivered c) := by
  obtain ⟨ts, hts⟩ := exists_sends hs c
  have hgates : (ts.map fun t => (⟨c, t.command⟩ : Delivery)).filterMap Delivery.gate? =
      ts.filterMap (·.gate?) := by
    rw [List.filterMap_map]
    exact List.filterMap_congr fun t ht => (hts.genuine t ht).1
  rw [hts.delivered_eq]
  refine ⟨?_, ?_, ?_⟩
  · rw [hts.forwarded, h.forwarded, List.length_append, List.length_map]
  · rw [hts.emitted, h.emitted, List.filterMap_append, Tally.bumpAll_append, hgates]
  · intro d hd
    obtain hd | hd := List.mem_append.1 hd
    · exact h.genuine d hd
    · obtain ⟨t, ht, rfl⟩ := List.mem_map.1 hd
      exact (hts.genuine t ht).2

theorem counted_afterUses [Oracle ω] [Recorder ρ] (o : ω) (recorder : Option ρ)
    (us : List (Use (Tap σ))) :
    let start : Engine ω (Tap σ) ρ := { oracle := o, recorder }
    Counted (start.afterUses us) (start.deliveries us) := by
  intro start
  have hfresh : Counted start [] := ⟨rfl, rfl, by simp⟩
  exact deliveries_induction (P := Counted)
    (fun _ _ _ hsame h =>
      ⟨hsame.forwarded.trans h.forwarded, hsame.emitted.trans h.emitted, h.genuine⟩)
    (fun _ _ c _ hs h => h.forward hs c) (fun _ _ _ h => ⟨h.forwarded, h.emitted, h.genuine⟩)
    hfresh us

end Engine

end CliffordT
