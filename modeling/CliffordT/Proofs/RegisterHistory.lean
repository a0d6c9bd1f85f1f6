import CliffordT.Proofs.RegisterEvents

/-!
# The history of the register

A `Ledger` is an engine with all the requests to its register that were ever accepted, those of
commands that stopped half way and of batches that failed included.

* `Ledger.Asks` : the moments of a call at which a request is put to the register;
* `Ledger.Accurate` : what holds of the register at every moment;
* `Ledger.Decides` : what becomes of a request;
* `Ledger.register_history` : on an engine that began afresh, after any calls, every moment is
  accurate, and every request is decided by what is claimed at that moment.
-/

namespace CliffordT

open Outcome (forEach)
open RegisterEvent (last?)

theorem Qubit.length_le_of_nodup {qs : List Qubit} (h : qs.Nodup) : qs.length ≤ UInt32.size := by
  have hinj : Function.Injective fun q : Qubit => q.index.toNat := by
    intro a b hab
    have hindex : a.index = b.index := UInt32.toNat_inj.1 hab
    cases a
    cases b
    exact congrArg Qubit.mk hindex
  have hsub : (qs.map fun q => q.index.toNat) ⊆ List.range UInt32.size := by
    intro n hn
    obtain ⟨q, -, rfl⟩ := List.mem_map.1 hn
    exact List.mem_range.2 q.index.toNat_lt_size
  have hle := (h.map hinj).length_le_of_subset hsub
  rwa [List.length_map, List.length_range] at hle

/-- An engine with the requests to its register that were accepted, the first one first. -/
structure Ledger (ω σ ρ : Type) where
  engine : Engine ω σ ρ
  events : List RegisterEvent := []

namespace Ledger

variable {ω σ ρ : Type}

/-- The ledger of a fresh engine. -/
def fresh (o : ω) (s : Option σ) (recorder : Option ρ) : Ledger ω σ ρ :=
  { engine := { oracle := o, sink := s, recorder } }

/-- A ledger when some requests are put to the register, up to the first one that is refused. -/
def requested (l : Ledger ω σ ρ) (vs : List RegisterEvent) : Ledger ω σ ρ :=
  { engine := (forEach Engine.request l.engine vs).state
    events := l.events ++ Outcome.passed Engine.request l.engine vs }

section Classify

variable [Oracle ω] [Recorder ρ]

/-- A ledger when some commands are classified, up to the first one that fails. -/
def classified (l : Ledger ω σ ρ) (cs : List Command) : Ledger ω σ ρ :=
  { engine := (forEach Engine.classify l.engine cs).state
    events := l.events ++ l.engine.acceptedAll cs }

/-- `Asks l batch v m` : a call with the batch puts the request `v` to the register at the moment
`m`.  The commands before its command are classified, and the requests for the targets before its
target are accepted. -/
inductive Asks (l : Ledger ω σ ρ) (batch : List Command) : RegisterEvent → Ledger ω σ ρ → Prop
  | intro {before behind : List Command} {c : Command} {v : RegisterEvent}
      {vs ws : List RegisterEvent} (hbatch : batch = before ++ c :: behind)
      (hbefore : (forEach Engine.classify l.engine before).error? = none)
      (hc : c.registerEvents = vs ++ v :: ws)
      (hvs : (forEach Engine.request (l.classified before).engine vs).error? = none) :
      Asks l batch v ((l.classified before).requested vs)

variable [Sink σ]

/-- A ledger after a call, whatever its result. -/
def call (l : Ledger ω σ ρ) (batch : List Command) : Ledger ω σ ρ :=
  { engine := (l.engine.process batch).state
    events := l.events ++ l.engine.acceptedAll batch }

/-- A ledger after several calls. -/
def run (l : Ledger ω σ ρ) (batches : List (List Command)) : Ledger ω σ ρ := batches.foldl call l

end Classify

/-! ### The law -/

/-- The register at a moment. -/
structure Accurate (l : Ledger ω σ ρ) : Prop where
  /-- No handle is claimed twice. -/
  nodup : l.engine.live.Nodup
  /-- The claimed handles are counted. -/
  count : l.engine.stats.activeQubits = l.engine.live.length
  /-- The count is bounded by the number of handles. -/
  bound : l.engine.stats.activeQubits ≤ UInt32.size
  /-- A handle is claimed if and only if the last accepted request on it was a claim. -/
  live_iff : ∀ q, q ∈ l.engine.live ↔ last? q l.events = some (.claim q)

/-- What becomes of a request at the moment `m` of a call with the outcome `o`. -/
inductive Decides (m : Ledger ω σ ρ) (o : Outcome (Engine ω σ ρ)) : RegisterEvent → Prop
  /-- A free handle is claimed, and counting it stays within the number of handles. -/
  | claimed {q : Qubit} (hq : q ∉ m.engine.live)
      (hroom : m.engine.stats.activeQubits + 1 ≤ UInt32.size)
      (h : m.engine.claim q = .done (m.engine.claimed [q])) : Decides m o (.claim q)
  /-- A claimed handle is not claimed again: the call fails and names it. -/
  | claimRefused {q : Qubit} (hq : q ∈ m.engine.live)
      (h : m.engine.claim q = .fail m.engine (.doubleAllocation q))
      (ho : o.error? = some (.doubleAllocation q)) : Decides m o (.claim q)
  /-- A claimed handle is released, and there is one to take off the count. -/
  | released {q : Qubit} (hq : q ∈ m.engine.live) (hpos : 0 < m.engine.stats.activeQubits)
      (h : m.engine.release q = .done (m.engine.released [q])) : Decides m o (.release q)
  /-- A free handle is not released: the call fails and names it. -/
  | releaseRefused {q : Qubit} (hq : q ∉ m.engine.live)
      (h : m.engine.release q = .fail m.engine (.counterUnderflow q))
      (ho : o.error? = some (.counterUnderflow q)) : Decides m o (.release q)

variable {l m : Ledger ω σ ρ}

/-- The register is what the accepted requests make of an empty one. -/
def Kept (l : Ledger ω σ ρ) : Prop := l.engine.RegisteredBy l.events

theorem Kept.accurate (h : Kept l) : Accurate l := by
  refine ⟨h.nodup, h.count, ?_, fun q => ?_⟩
  · rw [h.count]
    exact Qubit.length_le_of_nodup h.nodup
  · rw [h.live]
    exact RegisterEvent.mem_liveAfter_iff

theorem kept_fresh (o : ω) (s : Option σ) (recorder : Option ρ) : Kept (fresh o s recorder) :=
  ⟨⟨.nil, rfl⟩, rfl⟩

variable [Oracle ω] [Recorder ρ] {batch : List Command} {v : RegisterEvent}

theorem Kept.asks (h : Kept l) (hm : Asks l batch v m) : Kept m := by
  obtain ⟨-, -, -, -⟩ := hm
  exact (h.classifyAll _).requests _

variable [Sink σ]

theorem Kept.run (h : Kept l) (batches : List (List Command)) : Kept (l.run batches) := by
  induction batches generalizing l with
  | nil => exact h
  | cons batch batches ih => exact ih (h.process batch)

theorem Asks.process_of_refused (hm : Asks l batch v m) {err : PipelineError}
    (hv : (m.engine.request v).error? = some err) :
    (l.engine.process batch).error? = some err := by
  obtain @⟨before, behind, c, _, vs, ws, rfl, hbefore, hc, hvs⟩ := hm
  -- the refusal stops the requests of the command, these stop the command, and this the batch
  have hrequests : (forEach Engine.request (l.classified before).engine
      c.registerEvents).error? = some err := by
    obtain ⟨hrun, -, herror⟩ := Outcome.forEach_stop hvs hv ws
    rw [hc, hrun]
    exact herror
  have hclassify : ((l.classified before).engine.classify c).error? = some err := by
    rw [Engine.classify_of_refused hrequests]
    exact hrequests
  obtain ⟨hrun, -, herror⟩ := Outcome.forEach_stop hbefore hclassify behind
  rw [← hrun] at herror
  rw [Engine.process_of_error herror]
  exact herror

theorem Kept.decides (h : Kept l) (hm : Asks l batch v m) :
    Decides m (l.engine.process batch) v := by
  have hkept := h.asks hm
  cases v with
  | claim q =>
    -- a handle is claimed if it is free; the count then has room for it
    by_cases hq : q ∈ m.engine.live
    · have hfail := Engine.claim_of_mem hq
      exact .claimRefused hq hfail (hm.process_of_refused (congrArg Outcome.error? hfail))
    · refine .claimed hq ?_ (Engine.claim_of_not_mem hq)
      rw [hkept.count]
      exact Qubit.length_le_of_nodup (List.nodup_cons.2 ⟨hq, hkept.nodup⟩)
  | release q =>
    by_cases hq : q ∈ m.engine.live
    · refine .released hq ?_ (hkept.release_of_mem hq)
      rw [hkept.count]
      exact List.length_pos_of_mem hq
    · have hfail := Engine.release_of_not_mem hq
      exact .releaseRefused hq hfail (hm.process_of_refused (congrArg Outcome.error? hfail))

/-- **The register follows the accepted requests.**  After any calls on an engine that began afresh,
whatever their results and whatever the sink, no handle is claimed twice and the claimed handles are
counted; they are those on which the last accepted request was a claim.  The same holds at every
moment of the next call at which a target is due, and the target is accepted exactly when it is free
to be claimed, or claimed to be released. -/
theorem register_history (o : ω) (s : Option σ) (recorder : Option ρ)
    (earlier : List (List Command)) :
    Accurate (run (fresh o s recorder) earlier) ∧
      ∀ batch v m, Asks (run (fresh o s recorder) earlier) batch v m →
        Accurate m ∧ Decides m ((run (fresh o s recorder) earlier).engine.process batch) v := by
  have hkept := (kept_fresh o s recorder).run earlier
  exact ⟨hkept.accurate, fun batch v m hm => ⟨(hkept.asks hm).accurate, hkept.decides hm⟩⟩

/-- A command that stopped half way has claimed two handles; one of them is released since.  A
command that releases the other one twice is refused at its second target. -/
theorem register_history_repeated_target :
    let o : FunctionOracle := ⟨fun _ _ => .ok "TH"⟩
    let log : CommandLog := {}
    let start : Ledger FunctionOracle CommandLog OutcomeLog := fresh o (some log) none
    let earlier : List (List Command) := [[⟨.allocate, [⟨0⟩, ⟨1⟩, ⟨0⟩, ⟨2⟩]⟩], [.deallocate ⟨1⟩]]
    let l := start.run earlier
    let batch : List Command := [.flush, ⟨.deallocate, [⟨0⟩, ⟨0⟩]⟩]
    let m := (l.classified [.flush]).requested [.release ⟨0⟩]
    l.events = [.claim ⟨0⟩, .claim ⟨1⟩, .release ⟨1⟩] ∧ Accurate l ∧
      (l.engine.process batch).error? = some (.counterUnderflow ⟨0⟩) ∧
      Asks l batch (.release ⟨0⟩) m ∧ Accurate m ∧
      Decides m (l.engine.process batch) (.release ⟨0⟩) := by
  intro o log start earlier l batch m
  let c : Command := ⟨.deallocate, [⟨0⟩, ⟨0⟩]⟩
  have hbatch : batch = [.flush] ++ c :: [] := rfl
  have hc : c.registerEvents = [.release ⟨0⟩] ++ .release ⟨0⟩ :: [] := rfl
  have hm : Asks l batch (.release ⟨0⟩) m := .intro hbatch (by decide) hc (by decide)
  obtain ⟨hl, hnext⟩ := register_history o (some log) (none : Option OutcomeLog) earlier
  exact ⟨by decide, hl, by decide, hm, hnext batch _ m hm⟩

end Ledger

end CliffordT
