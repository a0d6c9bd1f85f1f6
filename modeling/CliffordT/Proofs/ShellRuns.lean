import CliffordT.Host.Shell.State
import CliffordT.Proofs.FileSystem
import Mathlib.Order.Defs.Unbundled

/-!
# What runs leave behind

A script cannot take back what it has written, nor unread what it has read: whatever an action
does, every stream that there was is still there, of the same kind, with more behind its output and
less of its input.

* `Stream.Onward`, `State.Onward` : a later state of a stream, and of everything,
* `Run.Moves` : an action that leaves a related state behind, in whichever state it starts and
  however it ends,
* `Run.Moves.bind`, `Run.Moves.each`, `Run.Moves.loop` : so does what is made of such actions,
* `Run.IsOnward.writtenTo_prefix` : what has been written stays written.
-/

namespace CliffordT

namespace Shell

/-! ### Streams -/

/-- A later state of a stream: of the same kind, less is left of its input, more stands behind its
output. -/
inductive Stream.Onward : Stream → Stream → Prop
  | source {rest rest' : Text} (h : rest' <:+ rest) : Onward (.source rest) (.source rest')
  | sink {pieces pieces' : List Text} (h : pieces <:+ pieces') :
    Onward (.sink pieces) (.sink pieces')
  | file (place : Place) (position position' : Nat) (reads writes appends : Bool) :
    Onward (.file place position reads writes appends) (.file place position' reads writes appends)
  | device (d : Device) (reads writes : Bool) :
    Onward (.device d reads writes) (.device d reads writes)

theorem Stream.Onward.refl (stream : Stream) : stream.Onward stream := by
  cases stream with
  | source rest => exact .source (List.suffix_refl _)
  | sink pieces => exact .sink (List.suffix_refl _)
  | file place position reads writes appends => exact .file ..
  | device d reads writes => exact .device ..

theorem Stream.Onward.trans {a b c : Stream} (hab : a.Onward b) (hbc : b.Onward c) :
    a.Onward c := by
  cases hab with
  | source h => cases hbc with | source h' => exact .source (h'.trans h)
  | sink h => cases hbc with | sink h' => exact .sink (h.trans h')
  | file => cases hbc with | file => exact .file ..
  | device => cases hbc with | device => exact .device ..

/-! ### States -/

/-- A later state of everything. -/
structure State.Onward (s s' : State) : Prop where
  /-- No stream is lost. -/
  streams : ∀ (n : Nat) (stream : Stream), s.streams[n]? = some stream →
    ∃ stream' : Stream, s'.streams[n]? = some stream' ∧ stream.Onward stream'
  /-- No document of a script is lost. -/
  documents : s.documents <:+ s'.documents
  lastNumber : s.lastNumber ≤ s'.lastNumber
  /-- No place gets two entries. -/
  files : s.files.IsTable → s'.files.IsTable

namespace State.Onward

theorem refl (s : State) : s.Onward s where
  streams := fun _ stream h => ⟨stream, h, .refl stream⟩
  documents := List.suffix_refl _
  lastNumber := Nat.le_refl _
  files := id

theorem trans {a b c : State} (hab : a.Onward b) (hbc : b.Onward c) : a.Onward c where
  streams := by
    intro n stream h
    obtain ⟨stream', h', hon⟩ := hab.streams n stream h
    obtain ⟨stream'', h'', hon'⟩ := hbc.streams n stream' h'
    exact ⟨stream'', h'', hon.trans hon'⟩
  documents := hab.documents.trans hbc.documents
  lastNumber := Nat.le_trans hab.lastNumber hbc.lastNumber
  files := fun h => hbc.files (hab.files h)

theorem process (s : State) (p : Process) : s.Onward { s with toProcess := p } :=
  ⟨(refl s).streams, List.suffix_refl _, Nat.le_refl _, id⟩

theorem add (s : State) (stream : Stream) :
    s.Onward { s with streams := s.streams.push stream } where
  streams := by
    intro n old h
    have hn : n < s.streams.size := (Array.getElem?_eq_some_iff.mp h).1
    exact ⟨old, by rw [Array.getElem?_push_lt hn, ← Array.getElem?_eq_getElem hn, h], .refl old⟩
  documents := List.suffix_refl _
  lastNumber := Nat.le_refl _
  files := id

theorem replace {s : State} {n : Nat} {old new : Stream} (h : s.streams[n]? = some old)
    (hon : old.Onward new) : s.Onward { s with streams := s.streams.setIfInBounds n new } where
  streams := by
    intro m stream hm
    by_cases hmn : n = m
    · subst hmn
      obtain rfl : old = stream := by simpa [h] using hm
      have hn : n < s.streams.size := (Array.getElem?_eq_some_iff.mp h).1
      exact ⟨new, by simp [hn], hon⟩
    · exact ⟨stream, by simpa [Array.getElem?_setIfInBounds, hmn] using hm, .refl stream⟩
  documents := List.suffix_refl _
  lastNumber := Nat.le_refl _
  files := id

theorem raise (s : State) (raised : List (Nat × Nat)) : s.Onward { s with raised } :=
  ⟨(refl s).streams, List.suffix_refl _, Nat.le_refl _, id⟩

theorem addDocuments (s : State) (more : List (Nat × Phrase)) :
    s.Onward { s with documents := more ++ s.documents } :=
  ⟨(refl s).streams, List.suffix_append _ _, Nat.le_refl _, id⟩

theorem count {s s' : State} (h : s.Onward s') :
    s.Onward { s' with lastNumber := s.lastNumber + 1 } :=
  ⟨h.streams, h.documents, Nat.le_succ _, h.files⟩

theorem setFiles {s s' : State} (h : s.Onward s') {files : Files}
    (hfiles : s.files.IsTable → files.IsTable) : s.Onward { s' with files } :=
  ⟨h.streams, h.documents, h.lastNumber, hfiles⟩

theorem putFile (s : State) (place : Place) (e : Entry) :
    s.Onward { s with files := s.files.put place e } := (refl s).setFiles fun h => h.put place e

end State.Onward

namespace Run

/-! ### How actions run -/

section Steps

variable {α β : Type} (s : State)

@[simp] theorem pure_apply (a : α) : (pure a : Run α) s = (.ok a, s) := rfl

@[simp] theorem throw_apply (j : Jump) : (throw j : Run α) s = (.error j, s) := rfl

@[simp] theorem get_apply : (get : Run State) s = (.ok s, s) := rfl

@[simp] theorem modify_apply (f : State → State) : (modify f : Run Unit) s = (.ok (), f s) := rfl

@[simp] theorem set_apply (s' : State) : (set s' : Run Unit) s = (.ok (), s') := rfl

@[simp] theorem modifyProcess_apply (f : Process → Process) :
    modifyProcess f s = (.ok (), { s with toProcess := f s.toProcess }) := rfl

theorem bind_apply (x : Run α) (f : α → Run β) :
    (x >>= f) s = match x s with
      | (.ok a, s') => f a s'
      | (.error j, s') => (.error j, s') := by
  show ExceptT.bindCont f (x s).1 (x s).2 = _
  cases h : x s with
  | mk r s' => cases r <;> rfl

theorem bind_apply_of_ok {x : Run α} {a : α} {s s' : State} (h : x s = (.ok a, s'))
    (f : α → Run β) : (x >>= f) s = f a s' := by
  rw [bind_apply, h]

end Steps

/-! ### Actions that move the state -/

/-- An action that leaves a state behind which is related to the one that it starts in. -/
class Moves {α : Type} (R : State → State → Prop) (action : Run α) : Prop where
  moves : ∀ s : State, R s (action s).2

namespace Moves

variable {α β γ : Type} {R : State → State → Prop} [hR : IsPreorder State R]

instance pure (a : α) : Moves R (pure a : Run α) := ⟨hR.refl⟩

instance throw (j : Jump) : Moves R (throw j : Run α) := ⟨hR.refl⟩

instance get : Moves R (get : Run State) := ⟨hR.refl⟩

/-- Two actions one after the other, the first one from a given state.  The second one runs only
where the first one does not end in a jump. -/
theorem andThen_at {x : Run α} {s : State} (hx : R s (x s).2) (f : α → Run β)
    [hf : ∀ a, Moves R (f a)] : R s ((x >>= f) s).2 := by
  rw [bind_apply]
  cases hr : x s with
  | mk r s' =>
    rw [hr] at hx
    cases r with
    | error j => exact hx
    | ok a => exact hR.trans _ _ _ hx ((hf a).moves s')

instance bind (x : Run α) (f : α → Run β) [hx : Moves R x] [∀ a, Moves R (f a)] :
    Moves R (x >>= f) := ⟨fun s => andThen_at (hx.moves s) f⟩

theorem andThen (x : Run α) (f : α → Run β) (hx : Moves R x) (hf : ∀ a, Moves R (f a)) :
    Moves R (x >>= f) := bind x f

omit hR in
instance ite (c : Prop) [Decidable c] (x y : Run α) [Moves R x] [Moves R y] :
    Moves R (if c then x else y) := by
  split <;> infer_instance

/-- From states related to a given one, an action leaves states behind that are too. -/
def From (R : State → State → Prop) (start : State) (action : Run α) : Prop :=
  ∀ s : State, R start s → R start (action s).2

theorem since (start : State) (action : Run α) [h : Moves R action] : From R start action :=
  fun s hs => hR.trans _ _ _ hs (h.moves s)

omit hR in
theorem From.andThen {start : State} {x : Run α} {f : α → Run β} (hx : From R start x)
    (hf : ∀ a, From R start (f a)) : From R start (x >>= f) := by
  intro s hs
  have h := hx s hs
  rw [bind_apply]
  cases hr : x s with
  | mk r s' =>
    rw [hr] at h
    cases r with
    | error j => exact h
    | ok a => exact hf a s' h

theorem afterGet (f : State → Run α) (hf : ∀ s, From R s (f s)) :
    Moves R (MonadState.get >>= f) :=
  ⟨fun s => hf s s (hR.refl s)⟩

/-! ### Repetition -/

/-- A loop over a list: the induction is on the list, whatever the loop carries along. -/
theorem each (l : List γ) (b : β) (f : γ → β → Run (ForInStep β))
    (hf : ∀ c b, Moves R (f c b)) : Moves R (forIn l b f) := by
  induction l generalizing b with
  | nil =>
    rw [List.forIn_nil]
    infer_instance
  | cons c l ih =>
    rw [List.forIn_cons]
    refine andThen (f c b) _ inferInstance fun r => ?_
    cases r with
    | done b => exact pure b
    | yield b => exact ih b

instance forIn (l : List γ) (b : β) (f : γ → β → Run (ForInStep β)) [∀ c b, Moves R (f c b)] :
    Moves R (forIn l b f) := each l b f inferInstance

instance mapM (f : γ → Run β) [∀ c, Moves R (f c)] (l : List γ) : Moves R (l.mapM f) := by
  induction l with
  | nil =>
    rw [List.mapM_nil]
    infer_instance
  | cons c l ih =>
    rw [List.mapM_cons]
    infer_instance

instance forM (f : γ → Run PUnit) [∀ c, Moves R (f c)] (l : List γ) : Moves R (l.forM f) := by
  induction l with
  | nil => exact pure _
  | cons c l ih => exact bind (f c) fun _ => l.forM f

instance anyM (f : γ → Run Bool) [∀ c, Moves R (f c)] (l : List γ) : Moves R (l.anyM f) := by
  induction l with
  | nil => exact pure false
  | cons c l ih =>
    refine andThen (f c) _ inferInstance fun b => ?_
    cases b with
    | true => exact pure true
    | false => exact ih

/-! ### Jumps -/

omit hR in
instance caught (body : Run Unit) [h : Moves R body] : Moves R (caught body) := by
  constructor
  intro s
  have hs := h.moves s
  unfold Run.caught
  cases hr : body s with
  | mk r s' =>
    rw [hr] at hs
    cases r with
    | ok u => exact hs
    | error j => exact hs

instance protect (body after : Run Unit) [Moves R body] [Moves R after] :
    Moves R (protect body after) := by
  refine andThen (Run.caught body) _ inferInstance fun j => ?_
  cases j with
  | none => infer_instance
  | some j => exact andThen after _ inferInstance fun _ => throw j

omit hR in
instance turn (body : Run Unit) [h : Moves R body] : Moves R (turn body) := by
  constructor
  intro s
  have hs := h.moves s
  unfold Run.turn
  cases hr : body s with
  | mk r s' =>
    rw [hr] at hs
    cases r with
    | ok u => exact hs
    | error j => cases j <;> grind

/-- The turns of a loop, by induction on how many of them there may be. -/
instance loop (holds : Run Bool) (body : Run Unit) [hh : Moves R holds] [Moves R body]
    [hf : ∀ status, Moves R (Run.finish status)] (turns last : Nat) :
    Moves R (loop holds body turns last) := by
  -- a turn may end in a jump, in the end of the loop, or in another turn
  induction turns generalizing last with
  | zero => exact ⟨hR.refl⟩
  | succ turns ih =>
    constructor
    intro s
    have hs := hh.moves s
    unfold Run.loop
    cases hr : holds s with
    | mk r s' =>
      rw [hr] at hs
      match r with
      | .error j => exact hs
      | .ok false => exact hR.trans _ _ _ hs ((hf last).moves s')
      | .ok true =>
        have ht : R s' (Run.turn body s').2 := Moves.moves s'
        cases htr : Run.turn body s' with
        | mk r s'' =>
          rw [htr] at ht
          simp only [htr]
          have hst := hR.trans _ _ _ hs ht
          match r with
          | .error j => exact hst
          | .ok false => exact hst
          | .ok true => exact hR.trans _ _ _ hst ((ih s''.status).moves s'')

instance forEach (body : Text → Run Unit) [∀ t, Moves R (body t)] (words : List Text) :
    Moves R (forEach body words) := by
  induction words with
  | nil => exact pure ()
  | cons word rest ih =>
    unfold Run.forEach
    infer_instance

/-! ### Parts of the state that are only looked at -/

instance streamNumber? (descriptor : Nat) : Moves R (streamNumber? descriptor) := by
  unfold Run.streamNumber?
  infer_instance

instance stream? (descriptor : Nat) : Moves R (stream? descriptor) := by
  unfold Run.stream?
  infer_instance

instance contentAt (place : Place) : Moves R (contentAt place) := by
  unfold Run.contentAt
  refine andThen _ _ get fun s => ?_
  split <;> infer_instance

instance peekAll (descriptor : Nat) : Moves R (peekAll descriptor) := by
  unfold Run.peekAll
  refine andThen _ _ inferInstance fun stream? => ?_
  split <;> infer_instance

instance size? (descriptor : Nat) : Moves R (size? descriptor) := by
  unfold Run.size?
  refine andThen _ _ inferInstance fun stream? => ?_
  split <;> infer_instance

instance written (n : Nat) : Moves R (written n) := by
  unfold Run.written
  refine andThen _ _ get fun s => ?_
  split <;> infer_instance

instance lookup? (name : Text) : Moves R (lookup? name) := by
  unfold Run.lookup?
  infer_instance

instance hold (name : Text) : Moves R (hold name) := by
  unfold Run.hold
  infer_instance

instance hasOption (c : Char) : Moves R (hasOption c) := by
  unfold Run.hasOption
  infer_instance

instance locate (t : Text) : Moves R (locate t) := by
  unfold Run.locate
  infer_instance

end Moves

/-! ### Actions that go onward -/

/-- An action that leaves a later state behind. -/
abbrev IsOnward {α : Type} (action : Run α) : Prop := Moves State.Onward action

instance : IsPreorder State State.Onward where
  refl := .refl
  trans _ _ _ := .trans

namespace IsOnward

instance modifyProcess (f : Process → Process) : IsOnward (modifyProcess f) :=
  ⟨fun s => .process s _⟩

instance finish (status : Nat) : IsOnward (finish status) := modifyProcess _

instance addDocuments (more : List (Nat × Phrase)) :
    IsOnward (modify fun s => { s with documents := more ++ s.documents } : Run Unit) :=
  ⟨fun s => .addDocuments s more⟩

instance raise (f : List (Nat × Nat) → List (Nat × Nat)) :
    IsOnward (modify fun s => { s with raised := f s.raised } : Run Unit) :=
  ⟨fun s => .raise s _⟩

instance putFile (place : Place) (e : Entry) :
    IsOnward (modify fun s => { s with files := s.files.put place e } : Run Unit) :=
  ⟨fun s => .putFile s place e⟩

/-! ### Streams -/

instance addStream (stream : Stream) : IsOnward (addStream stream) := ⟨fun s => .add s stream⟩

instance redirect (descriptor : Nat) (stream : Option Nat) :
    IsOnward (redirect descriptor stream) := modifyProcess _

end IsOnward

theorem streamNumber?_apply (descriptor : Nat) (s : State) :
    streamNumber? descriptor s = (.ok (s.descriptors.lookup descriptor), s) := rfl

theorem stream?_apply (descriptor : Nat) (s : State) :
    stream? descriptor s =
      (.ok ((s.descriptors.lookup descriptor).bind fun n => s.streams[n]?), s) := rfl

theorem exists_contentAt (place : Place) (s : State) :
    ∃ content : List UInt8, contentAt place s = (.ok content, s) := by
  unfold contentAt
  rw [bind_apply_of_ok (get_apply s)]
  cases s.files.lookup place with
  | none => exact ⟨_, pure_apply s _⟩
  | some entry => cases entry <;> exact ⟨_, pure_apply s _⟩

theorem replaceStream_onward {descriptor : Nat} {old new : Stream} {s : State}
    (h : ((s.descriptors.lookup descriptor).bind fun n => s.streams[n]?) = some old)
    (hon : old.Onward new) : s.Onward (replaceStream descriptor new s).2 := by
  obtain ⟨n, hn, hold⟩ := Option.bind_eq_some_iff.mp h
  have : replaceStream descriptor new s =
      (.ok (), { s with streams := s.streams.setIfInBounds n new }) := by
    rw [replaceStream, bind_apply, streamNumber?_apply, hn]
    rfl
  rw [this]
  exact .replace hold hon

namespace IsOnward

open Moves (andThen_at)

instance consume (descriptor n : Nat) : IsOnward (consume descriptor n) := by
  constructor
  intro s
  unfold Run.consume
  rw [bind_apply, stream?_apply]
  cases h : (s.descriptors.lookup descriptor).bind fun n => s.streams[n]? with
  | none => exact .refl s
  | some stream =>
    cases stream with
    | source rest => exact replaceStream_onward h (.source (List.drop_suffix n rest))
    | sink pieces => exact .refl s
    | file place position reads writes appends => exact replaceStream_onward h (.file ..)
    | device d reads writes => exact .refl s

instance readAll (descriptor : Nat) : IsOnward (readAll descriptor) := by
  unfold Run.readAll
  infer_instance

theorem writeFile_onward {descriptor : Nat} {place : Place} {position : Nat}
    {reads writes appends : Bool} {s : State}
    (h : ((s.descriptors.lookup descriptor).bind fun n => s.streams[n]?) =
      some (.file place position reads writes appends)) (e : Entry) (position' : Nat) :
    s.Onward ((replaceStream descriptor (.file place position' reads writes appends) >>= fun _ =>
      (Pure.pure true : Run Bool)) { s with files := s.files.put place e }).2 := by
  have hreplace := replaceStream_onward (s := { s with files := s.files.put place e }) h
    (Stream.Onward.file place position position' reads writes appends)
  exact (State.Onward.putFile s place e).trans (andThen_at hreplace _)

/-- Output goes behind the pieces of a sink, or into a file. -/
instance write (descriptor : Nat) (t : Text) : IsOnward (write descriptor t) := by
  constructor
  intro s
  unfold Run.write
  rw [bind_apply, stream?_apply]
  cases h : (s.descriptors.lookup descriptor).bind fun n => s.streams[n]? with
  | none => exact .refl s
  | some stream =>
    cases stream with
    | source rest => exact .refl s
    | sink pieces =>
      exact andThen_at (replaceStream_onward h (.sink (List.suffix_cons t pieces))) _
    | device d reads writes => cases writes <;> exact .refl s
    | file place position reads writes appends =>
      cases writes with
      | false => exact .refl s
      | true =>
        obtain ⟨content, hcontent⟩ := exists_contentAt place s
        dsimp only
        rw [bind_apply_of_ok hcontent, bind_apply, modify_apply]
        exact writeFile_onward h _ _

/-! ### Complaints -/

instance complain (t : Text) : IsOnward (complain t) := by
  unfold Run.complain
  infer_instance

instance abort {α : Type} (t : Text) : IsOnward (abort t : Run α) := by
  unfold Run.abort
  infer_instance

instance refuse (t : Text) : IsOnward (refuse t) := by
  unfold Run.refuse
  infer_instance

/-! ### Variables -/

instance unset (name : Text) : IsOnward (unset name) := modifyProcess _

instance put (name value : Text) : IsOnward (put name value) := modifyProcess _

instance assign (name value : Text) : IsOnward (assign name value) := by
  unfold Run.assign
  infer_instance

instance restore (h : Held) : IsOnward (restore h) := by
  unfold Run.restore
  split <;> infer_instance

end IsOnward

/-! ### What has been written -/

/-- What has been written to a stream, in order. -/
def writtenTo (s : State) (n : Nat) : Text :=
  match s.streams[n]? with
  | some (.sink pieces) => pieces.reverse.flatten
  | _ => []

theorem written_apply (n : Nat) (s : State) : written n s = (.ok (writtenTo s n), s) := by
  unfold written writtenTo
  rw [bind_apply_of_ok (get_apply s)]
  cases s.streams[n]? with
  | none => rfl
  | some stream => cases stream <;> rfl

/-- What has been written stays written, and more comes behind it. -/
theorem IsOnward.writtenTo_prefix {α : Type} (action : Run α) [h : IsOnward action] (s : State)
    (n : Nat) : writtenTo s n <+: writtenTo (action s).2 n := by
  unfold writtenTo
  split
  · rename_i pieces hpieces
    obtain ⟨stream', hstream', hon⟩ := (h.moves s).streams n _ hpieces
    cases hon with
    | sink hsuffix =>
      obtain ⟨more, rfl⟩ := hsuffix
      rw [hstream']
      simp
  · exact List.nil_prefix

end Run
end Shell
end CliffordT
