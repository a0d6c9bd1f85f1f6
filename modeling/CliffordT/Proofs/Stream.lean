import CliffordT.Pipeline.Sink
import CliffordT.Pipeline.Stats
import CliffordT.Proofs.Answers
import CliffordT.Proofs.Outcome

/-!
# Rewritten streams

A forwarded batch is a list of parts: a command stays as it is, and a rotation becomes the word it
takes.  This file says what is sent for the parts, and how far a sink gets with them.

* `Sink.sendAll`, `Sink.accepted` : sending commands up to the first refusal;
* `Part.stream` : what is sent for some parts, each command with the gate it is emitted for;
* `Part.waiting` : the words of the parts behind the one that is being sent;
* `Rewrites cs ws ps` : the commands `cs` become the parts `ps` when the rotations take the words
  `ws` in order.
-/

namespace CliffordT

/-! ### Sending -/

namespace Sink

variable {σ : Type} [Sink σ] {s : σ} {cs : List Command} {err : PipelineError}

/-- Send commands one after the other, up to the first one that is refused. -/
def sendAll (s : σ) (cs : List Command) : Outcome σ := Outcome.forEach send s cs

/-- The number of commands that are accepted before the first refusal. -/
def accepted (s : σ) : List Command → Nat
  | [] => 0
  | c :: cs => if (send s c).isOk then accepted (send s c).state cs + 1 else 0

@[simp] theorem sendAll_nil (s : σ) : sendAll s [] = .done s := rfl

theorem sendAll_cons (s : σ) (c : Command) (cs : List Command) :
    sendAll s (c :: cs) = (send s c).andThen fun s => sendAll s cs := rfl

@[simp] theorem accepted_nil (s : σ) : accepted s [] = 0 := rfl

theorem accepted_cons_of_ok {c : Command} (h : (send s c).error? = none) (cs : List Command) :
    accepted s (c :: cs) = accepted (send s c).state cs + 1 := by
  rw [accepted, if_pos (Outcome.isOk_iff.2 h)]

theorem accepted_cons_of_error {c : Command} (h : (send s c).error? = some err)
    (cs : List Command) : accepted s (c :: cs) = 0 := by
  simp [accepted, Outcome.isOk, h]

theorem accepted_of_ok (h : (sendAll s cs).error? = none) : accepted s cs = cs.length := by
  induction cs generalizing s with
  | nil => rfl
  | cons c cs ih =>
    rw [sendAll_cons, Outcome.andThen_eq_none_iff] at h
    rw [accepted_cons_of_ok h.1, ih h.2, List.length_cons]

theorem accepted_append {cs : List Command} (h : (sendAll s cs).error? = none)
    (ds : List Command) : accepted s (cs ++ ds) = cs.length + accepted (sendAll s cs).state ds := by
  induction cs generalizing s with
  | nil => simp
  | cons c cs ih =>
    rw [sendAll_cons, Outcome.andThen_eq_none_iff] at h
    rw [List.cons_append, accepted_cons_of_ok h.1, ih h.2, sendAll_cons,
      Outcome.state_andThen h.1, List.length_cons]
    omega

theorem accepted_append_of_error {cs : List Command} (h : (sendAll s cs).error? = some err)
    (ds : List Command) : accepted s (cs ++ ds) = accepted s cs := by
  induction cs generalizing s with
  | nil => cases h
  | cons c cs ih =>
    rw [sendAll_cons] at h
    cases hc : (send s c).error? with
    | some err' =>
      rw [List.cons_append, accepted_cons_of_error hc, accepted_cons_of_error hc]
    | none =>
      rw [Outcome.error?_andThen hc] at h
      rw [List.cons_append, accepted_cons_of_ok hc, accepted_cons_of_ok hc, ih h]

theorem sendAll_append_of_error (h : (sendAll s cs).error? = some err) (ds : List Command) :
    sendAll s (cs ++ ds) = sendAll s cs :=
  Outcome.forEach_append_of_error h ds

theorem error?_sendAll_append (h : (sendAll s cs).error? = none) (ds : List Command) :
    (sendAll s (cs ++ ds)).error? = (sendAll (sendAll s cs).state ds).error? :=
  Outcome.error?_forEach_append h ds

theorem state_sendAll_append (h : (sendAll s cs).error? = none) (ds : List Command) :
    (sendAll s (cs ++ ds)).state = (sendAll (sendAll s cs).state ds).state :=
  Outcome.state_forEach_append h ds

/-- A sink that accepts all commands, one after the other. -/
def AcceptsAll (s : σ) : Prop := ∀ cs, (sendAll s cs).error? = none

theorem AcceptsAll.sendAll (h : AcceptsAll s) (cs : List Command) :
    AcceptsAll (sendAll s cs).state := by
  intro ds
  rw [← error?_sendAll_append (h cs)]
  exact h (cs ++ ds)

/-- `s` accepts the first `n` of the commands `cs` in order and refuses the next one, `c`. -/
structure Refuses (s : σ) (cs : List Command) (n : Nat) (c : Command) (err : PipelineError) :
    Prop where
  /-- The command that is refused. -/
  next : cs[n]? = some c
  /-- The commands before it are accepted. -/
  accepts : (sendAll s (cs.take n)).error? = none
  /-- It is refused. -/
  refuses : (send (sendAll s (cs.take n)).state c).error? = some err

theorem exists_refuses (h : (sendAll s cs).error? = some err) :
    ∃ c, Refuses s cs (accepted s cs) c err ∧
      (sendAll s cs).state = (send (sendAll s (cs.take (accepted s cs))).state c).state := by
  obtain ⟨before, c, behind, rfl, hbefore, hc⟩ := Outcome.exists_stop h
  change (sendAll s before).error? = none at hbefore
  change (send (sendAll s before).state c).error? = some err at hc
  have hn : accepted s (before ++ c :: behind) = before.length := by
    rw [accepted_append hbefore, accepted_cons_of_error hc, Nat.add_zero]
  have htake : (before ++ c :: behind).take before.length = before := List.take_left
  obtain ⟨hrun, hstate, herror⟩ := Outcome.forEach_stop hbefore hc behind
  refine ⟨c, ⟨by simp [hn], ?_, ?_⟩, ?_⟩
  · rw [hn, htake]
    exact hbefore
  · rw [hn, htake]
    exact hc
  · rw [hn, htake]
    exact (congrArg Outcome.state hrun).trans hstate

theorem accepted_lt (h : (sendAll s cs).error? = some err) : accepted s cs < cs.length := by
  obtain ⟨c, hrefuses, -⟩ := exists_refuses h
  exact (List.getElem?_eq_some_iff.1 hrefuses.next).1

end Sink

/-! ### Parts -/

/-- A command on its way to the next stage. -/
structure Sending where
  command : Command
  /-- The gate that the command is emitted for, if it stands in the word of a rotation. -/
  gate? : Option FixedGate := none
deriving DecidableEq

/-- What a command becomes when it is forwarded. -/
inductive Part where
  /-- The command as it is. -/
  | plain (c : Command)
  /-- The word of a rotation, on its qubit. -/
  | expansion (word : Word) (q : Qubit)
deriving DecidableEq

namespace Part

/-- What is sent for a part. -/
def sendings : Part → List Sending
  | plain c => [⟨c, none⟩]
  | expansion word q => word.gates.map fun g => ⟨.fixed g q, some g⟩

/-- The commands that are sent for a part. -/
def commands : Part → List Command
  | plain c => [c]
  | expansion word q => word.toCommands q

/-- The word that a part takes from the queue. -/
def word? : Part → Option Word
  | plain _ => none
  | expansion word _ => some word

/-- What is sent for some parts. -/
def stream (ps : List Part) : List Sending := ps.flatMap sendings

/-- The words of some parts. -/
def wordsOf (ps : List Part) : List Word := ps.filterMap word?

/-- The words that wait when `n` commands are sent and the next one is due: those of the parts
behind the one that the next command belongs to. -/
def waiting : List Part → Nat → List Word
  | [], _ => []
  | x :: ps, n => if n < x.sendings.length then wordsOf ps else waiting ps (n - x.sendings.length)

@[simp] theorem map_command_sendings (x : Part) :
    x.sendings.map (·.command) = x.commands := by
  cases x with
  | plain c => rfl
  | expansion word q => simp [sendings, commands, Word.toCommands]

@[simp] theorem stream_nil : stream [] = [] := rfl

@[simp] theorem stream_cons (x : Part) (ps : List Part) :
    stream (x :: ps) = x.sendings ++ stream ps := rfl

theorem map_command_stream (ps : List Part) :
    (stream ps).map (·.command) = ps.flatMap commands := by
  induction ps with
  | nil => rfl
  | cons x ps ih => simp [ih]

theorem length_stream (ps : List Part) :
    (stream ps).length = (ps.flatMap commands).length := by
  rw [← map_command_stream, List.length_map]

@[simp] theorem wordsOf_plain (c : Command) (ps : List Part) :
    wordsOf (plain c :: ps) = wordsOf ps := rfl

@[simp] theorem wordsOf_expansion (word : Word) (q : Qubit) (ps : List Part) :
    wordsOf (expansion word q :: ps) = word :: wordsOf ps := rfl

theorem waiting_length (ps : List Part) : waiting ps (stream ps).length = [] := by
  induction ps with
  | nil => rfl
  | cons x ps ih =>
    rw [stream_cons, List.length_append, waiting, if_neg (by omega), Nat.add_sub_cancel_left]
    exact ih

theorem waiting_accepted {σ : Type} [Sink σ] {s : σ} {ps : List Part}
    (h : (Sink.sendAll s (ps.flatMap commands)).error? = none) :
    waiting ps (Sink.accepted s (ps.flatMap commands)) = [] := by
  rw [Sink.accepted_of_ok h, ← length_stream]
  exact waiting_length ps

/-- As long as something is to be sent, the next command belongs to one of the parts, and the words
of the parts behind it wait. -/
theorem exists_waiting {ps : List Part} {n : Nat} (h : n < (stream ps).length) :
    ∃ k < ps.length, (stream (ps.take k)).length ≤ n ∧ n < (stream (ps.take (k + 1))).length ∧
      waiting ps n = wordsOf (ps.drop (k + 1)) := by
  induction ps generalizing n with
  | nil => simp at h
  | cons x ps ih =>
    by_cases hx : n < x.sendings.length
    -- the next command is one of the first part
    · refine ⟨0, by simp, by simp, ?_, ?_⟩
      · simpa using hx
      · rw [waiting, if_pos hx]
        rfl
    · rw [stream_cons, List.length_append] at h
      obtain ⟨k, hk, hle, hlt, hw⟩ := ih (n := n - x.sendings.length) (by omega)
      refine ⟨k + 1, by simpa using hk, ?_, ?_, ?_⟩
      · rw [List.take_succ_cons, stream_cons, List.length_append]
        omega
      · rw [List.take_succ_cons, stream_cons, List.length_append]
        omega
      · rw [waiting, if_neg hx, hw]
        rfl

end Part

/-! ### Rewriting -/

/-- The number of rotations among some commands. -/
def rotationCount (cs : List Command) : Nat := cs.countP fun c => c.gate.isRotation

@[simp] theorem rotationCount_nil : rotationCount [] = 0 := rfl

theorem rotationCount_cons_of_rotation {c : Command} (hc : c.gate.isRotation = true)
    (cs : List Command) : rotationCount (c :: cs) = rotationCount cs + 1 :=
  List.countP_cons_of_pos hc

theorem rotationCount_cons_of_plain {c : Command} (hc : c.gate.isRotation = false)
    (cs : List Command) : rotationCount (c :: cs) = rotationCount cs := by
  simp [rotationCount, hc]

theorem rotationCount_append (cs ds : List Command) :
    rotationCount (cs ++ ds) = rotationCount cs + rotationCount ds :=
  List.countP_append

/-- The commands become the parts when their rotations take the words in order, all of them. -/
inductive Rewrites : List Command → List Word → List Part → Prop
  | nil : Rewrites [] [] []
  | plain {c : Command} {cs : List Command} {ws : List Word} {ps : List Part}
      (hc : c.gate.isRotation = false) (h : Rewrites cs ws ps) :
      Rewrites (c :: cs) ws (.plain c :: ps)
  | rotation (axis : Axis) (angle : Binary64) (q : Qubit) (w : Word) {cs : List Command}
      {ws : List Word} {ps : List Part} (h : Rewrites cs ws ps) :
      Rewrites (.rotation axis angle q :: cs) (w :: ws) (.expansion w q :: ps)

namespace Rewrites

variable {cs : List Command} {ws : List Word} {ps : List Part}

theorem wordsOf_eq (h : Rewrites cs ws ps) : Part.wordsOf ps = ws := by
  induction h with
  | nil => rfl
  | plain hc h ih => exact ih
  | rotation axis angle q w h ih => rw [Part.wordsOf_expansion, ih]

theorem plain_of_mem (h : Rewrites cs ws ps) :
    ∀ c ∈ ps.flatMap Part.commands, c.gate.isRotation = false := by
  induction h with
  | nil => simp
  | plain hc h ih => exact List.forall_mem_cons.2 ⟨hc, ih⟩
  | rotation axis angle q w h ih =>
    refine List.forall_mem_append.2 ⟨fun c hc => ?_, ih⟩
    obtain ⟨g, -, rfl⟩ := List.mem_map.1 hc
    rfl

theorem append {ds : List Command} {us : List Word} {qs : List Part} (h : Rewrites cs ws ps)
    (h' : Rewrites ds us qs) : Rewrites (cs ++ ds) (ws ++ us) (ps ++ qs) := by
  induction h with
  | nil => exact h'
  | plain hc h ih => exact .plain hc ih
  | rotation axis angle q w h ih => exact .rotation axis angle q w ih

theorem drop (h : Rewrites cs ws ps) (k : Nat) :
    Rewrites (cs.drop k) (Part.wordsOf (ps.drop k)) (ps.drop k) := by
  induction h generalizing k with
  | nil =>
    rw [List.drop_nil, List.drop_nil]
    exact .nil
  | plain hc h ih =>
    cases k with
    | zero => exact .plain hc (ih 0)
    | succ k => exact ih k
  | rotation axis angle q w h ih =>
    cases k with
    | zero => exact .rotation axis angle q w (ih 0)
    | succ k => exact ih k

end Rewrites

/-- Commands whose rotations have one target each can be rewritten with one word for each
rotation. -/
theorem exists_rewrites {cs : List Command} {ws : List Word}
    (htargets : ∀ c ∈ cs, c.gate.isRotation = true → ∃ axis angle q, c = .rotation axis angle q)
    (hlen : ws.length = rotationCount cs) : ∃ ps, Rewrites cs ws ps := by
  induction cs generalizing ws with
  | nil =>
    obtain rfl : ws = [] := List.length_eq_zero_iff.1 hlen
    exact ⟨[], .nil⟩
  | cons c cs ih =>
    have htail := fun d hd => htargets d (List.mem_cons_of_mem c hd)
    -- each rotation takes the next word, and no other command takes one
    by_cases hc : c.gate.isRotation = true
    · obtain ⟨axis, angle, q, rfl⟩ := htargets c List.mem_cons_self hc
      rw [rotationCount_cons_of_rotation hc] at hlen
      cases ws with
      | nil => simp at hlen
      | cons w ws =>
        obtain ⟨ps, hps⟩ := ih htail (by simpa using hlen)
        exact ⟨_, .rotation axis angle q w hps⟩
    · rw [Bool.not_eq_true] at hc
      rw [rotationCount_cons_of_plain hc] at hlen
      obtain ⟨ps, hps⟩ := ih htail hlen
      exact ⟨_, .plain hc hps⟩

end CliffordT
