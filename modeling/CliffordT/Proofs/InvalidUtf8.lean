import CliffordT.Proofs.Utf8

/-!
# Bytes that are no text

Bytes that are not valid UTF-8 are valid up to a place at which no character stands.  The bytes from
there on either all belong to one character, of which the rest is missing, or break off: one more
byte than their maximal part begins no character.

* `Utf8.isStart_take_iff` : how many of some bytes begin a character;
* `Utf8.Stuck` : no character stands at the head of some bytes;
* `Utf8.head_of_stuck` : what stands there instead is a maximal part;
* `Utf8.length_le_of_stuck` : no prefix that reaches beyond such a place is a text;
* `Utf8.decode_eq_error_iff` : **decoding stops where the longest valid prefix ends, and finds the
  input incomplete if and only if some character begins with all the rest**;
* `Utf8.replaces_iff` : **the lossy text has the characters of the bytes, and one U+FFFD for each
  maximal part that is none.**
-/

namespace CliffordT

namespace Utf8

/-! ### Parts of characters -/

/-- The bytes encode a text. -/
def IsText (bytes : List UInt8) : Prop := ∃ cs, bytes = encode cs

/-- The bytes begin the encoding of a character, or are all of it. -/
def IsStart (part : List UInt8) : Prop := ∃ c, part <+: String.utf8EncodeChar c

/-- The bytes begin the encoding of a character, of which some are missing. -/
def IsUnfinished (part : List UInt8) : Prop :=
  ∃ c, part <+: String.utf8EncodeChar c ∧ part ≠ String.utf8EncodeChar c

/-- There are bytes, and no character stands at their head. -/
def Stuck (bytes : List UInt8) : Prop :=
  bytes ≠ [] ∧ ∀ c, ¬ String.utf8EncodeChar c <+: bytes

/-- The most bytes at the head of `bytes` that begin a character, or one byte if there are none. -/
structure IsMaximalPart (bytes part : List UInt8) : Prop where
  isPrefix : part <+: bytes
  ne_nil : part ≠ []
  start : IsStart part ∨ part.length = 1
  maximal : ∀ longer, longer <+: bytes → IsStart longer → longer.length ≤ part.length

/-- The first `n` bytes are a text, and no more of them are. -/
structure IsLongestText (bytes : List UInt8) (n : Nat) : Prop where
  le : n ≤ bytes.length
  isText : IsText (bytes.take n)
  longest : ∀ m, n < m → m ≤ bytes.length → ¬ IsText (bytes.take m)

variable {lead : UInt8} {front rest bytes part : List UInt8} {ranges : List (Nat × Nat)}
  {c d : Char} {cs ds : List Char} {fault : Fault} {position n m : Nat}

theorem IsLongestText.unique (h : IsLongestText bytes n) (h' : IsLongestText bytes m) : n = m := by
  have hle : ¬ n < m := fun hlt => h.longest m hlt h'.le h'.isText
  have hge : ¬ m < n := fun hlt => h'.longest n hlt h.le h.isText
  omega

theorem IsMaximalPart.length_le {part' : List UInt8} (h : IsMaximalPart bytes part)
    (h' : IsMaximalPart bytes part') : part.length ≤ part'.length := by
  rcases h.start with hstart | hone
  · exact h'.maximal part h.isPrefix hstart
  · rw [hone]
    exact List.length_pos_iff.2 h'.ne_nil

theorem IsMaximalPart.unique {part' : List UInt8} (h : IsMaximalPart bytes part)
    (h' : IsMaximalPart bytes part') : part = part' :=
  (List.prefix_of_prefix_length_le h.isPrefix h'.isPrefix (h.length_le h')).eq_of_length
    (Nat.le_antisymm (h.length_le h') (h'.length_le h))

theorem IsUnfinished.isStart (h : IsUnfinished part) : IsStart part :=
  let ⟨c, hprefix, _⟩ := h
  ⟨c, hprefix⟩

/-! ### Bytes in ranges -/

theorem matching_take (ranges : List (Nat × Nat)) (bytes : List UInt8) (m : Nat) :
    matching ranges (bytes.take m) = min m (matching ranges bytes) := by
  induction ranges generalizing bytes m with
  | nil => simp [matching]
  | cons r ranges ih =>
    cases bytes with
    | nil => simp [matching]
    | cons b bytes =>
      cases m with
      | zero => simp [matching]
      | succ m =>
        rw [List.take_succ_cons, matching, matching, ih]
        split_ifs <;> omega

theorem matching_le_right (ranges : List (Nat × Nat)) (bytes : List UInt8) :
    matching ranges bytes ≤ bytes.length := by
  have h := matching_take ranges bytes bytes.length
  rw [List.take_length] at h
  omega

theorem exists_inRange {lead : Nat} (h : followers lead = some ranges) :
    ∀ r ∈ ranges, ∃ b, InRange r b := by
  have hbyte : ∀ lo hi : Nat, lo ≤ hi → lo < 256 → ∃ b, InRange (lo, hi) b := by
    intro lo hi hle hlt
    refine ⟨UInt8.ofNat lo, ?_⟩
    rw [InRange, toNat_ofNat_byte hlt]
    exact ⟨Nat.le_refl lo, hle⟩
  have hany := hbyte 0x80 0xbf (by omega) (by omega)
  rcases lead_cases h with hlead | ⟨hlow, hhigh⟩ | ⟨hlow, hhigh⟩ | ⟨hlow, hhigh⟩
  · rw [followers_one hlead] at h
    obtain rfl := Option.some.inj h
    simp
  · rw [followers_two hlow hhigh] at h
    obtain rfl := Option.some.inj h
    simpa using hany
  · rw [followers_three hlow hhigh] at h
    obtain rfl := Option.some.inj h
    simp only [List.forall_mem_cons]
    refine ⟨hbyte _ _ ?_ ?_, hany, by simp⟩ <;> split_ifs <;> omega
  · rw [followers_four hlow hhigh] at h
    obtain rfl := Option.some.inj h
    simp only [List.forall_mem_cons]
    refine ⟨hbyte _ _ ?_ ?_, hany, hany, by simp⟩ <;> split_ifs <;> omega

theorem exists_completion (hranges : ∀ r ∈ ranges, ∃ b, InRange r b)
    (h : matching ranges front = front.length) :
    ∃ more, List.Forall₂ InRange ranges (front ++ more) := by
  induction ranges generalizing front with
  | nil =>
    obtain rfl := List.length_eq_zero_iff.1 (h.symm.trans (by simp [matching]))
    exact ⟨[], .nil⟩
  | cons r ranges ih =>
    obtain ⟨hr, hranges⟩ := List.forall_mem_cons.1 hranges
    -- the bytes that are there stay; behind them any byte of a range will do
    cases front with
    | nil =>
      obtain ⟨b, hb⟩ := hr
      have hnone : matching ranges [] = 0 := by cases ranges <;> rfl
      obtain ⟨more, hmore⟩ := ih hranges hnone
      exact ⟨b :: more, .cons hb hmore⟩
    | cons b front =>
      rw [matching] at h
      split_ifs at h with hb
      obtain ⟨more, hmore⟩ := ih hranges (Nat.succ.inj h)
      exact ⟨more, .cons hb hmore⟩

/-- Bytes begin a character if and only if they lie in the first ranges behind their lead byte. -/
theorem isStart_cons_iff : IsStart (lead :: front) ↔
    ∃ ranges, followers lead.toNat = some ranges ∧ matching ranges front = front.length := by
  constructor
  · rintro ⟨c, more, hmore⟩
    rw [List.cons_append] at hmore
    obtain ⟨⟨ranges, hranges, hfront⟩, -⟩ := isSequence_encode hmore.symm
    have hall : matching ranges (front ++ more) = ranges.length := by
      simpa using matching_append hfront []
    have htake := matching_take ranges (front ++ more) front.length
    rw [List.take_left, hall, hfront.length_eq, List.length_append] at htake
    exact ⟨ranges, hranges, by omega⟩
  · rintro ⟨ranges, hranges, hfront⟩
    obtain ⟨more, hmore⟩ := exists_completion (exists_inRange hranges) hfront
    exact ⟨_, more, (encode_character ⟨ranges, hranges, hmore⟩).symm⟩

/-- As many bytes begin a character as lie in the ranges behind the lead byte. -/
theorem isStart_take_iff (hm : m ≤ rest.length) : IsStart (lead :: rest.take m) ↔
    ∃ ranges, followers lead.toNat = some ranges ∧ m ≤ matching ranges rest := by
  have hmin : ∀ k, min m k = m ↔ m ≤ k := fun k => by omega
  simp only [isStart_cons_iff, matching_take, List.length_take, Nat.min_eq_left hm, hmin]

/-! ### Where no character stands -/

theorem stuck_of_head (h : ∀ c n, head lead rest ≠ .character c n) : Stuck (lead :: rest) := by
  refine ⟨List.cons_ne_nil _ _, ?_⟩
  rintro c ⟨more, hmore⟩
  obtain ⟨lead', front, hc⟩ := List.exists_cons_of_ne_nil (String.utf8EncodeChar_ne_nil (c := c))
  rw [hc, List.cons_append] at hmore
  obtain ⟨rfl, rfl⟩ := List.cons.inj hmore
  exact h c front.length (head_of_encode hc more)

theorem stuck_of_broken (h : head lead rest = .broken n) : Stuck (lead :: rest) := by
  refine stuck_of_head fun c m hc => ?_
  rw [h] at hc
  cases hc

theorem stuck_of_unfinished (h : head lead rest = .unfinished) : Stuck (lead :: rest) := by
  refine stuck_of_head fun c m hc => ?_
  rw [h] at hc
  cases hc

theorem head_ne_of_stuck (h : Stuck (lead :: rest)) : head lead rest ≠ .character c n := by
  intro hhead
  apply h.2 c
  rw [encode_of_head hhead]
  exact ⟨rest.drop n, congrArg (lead :: ·) (List.take_append_drop n rest)⟩

theorem isMaximalPart_of_unfinished (h : head lead rest = .unfinished) :
    IsMaximalPart (lead :: rest) (lead :: rest) ∧ IsUnfinished (lead :: rest) := by
  have hstuck := stuck_of_unfinished h
  have hstart : IsStart (lead :: rest) := by
    unfold head at h
    split at h
    · cases h
    · rename_i ranges hranges
      dsimp only at h
      split_ifs at h with hall hend
      exact isStart_cons_iff.2 ⟨ranges, hranges, hend⟩
  refine ⟨⟨List.prefix_refl _, hstuck.1, .inl hstart, ?_⟩, ?_⟩
  · exact fun longer hlonger _ => hlonger.length_le
  · obtain ⟨c, hc⟩ := hstart
    exact ⟨c, hc, fun heq => hstuck.2 c (heq ▸ List.prefix_refl _)⟩

theorem isMaximalPart_of_broken (h : head lead rest = .broken n) :
    IsMaximalPart (lead :: rest) (lead :: rest.take n) ∧ ¬ IsUnfinished (lead :: rest) ∧
      n ≤ rest.length := by
  -- the number of bytes that begin a character is known from the ranges alone
  have hcases : n ≤ rest.length ∧ (∀ m ≤ rest.length, IsStart (lead :: rest.take m) → m ≤ n) ∧
      (IsStart (lead :: rest.take n) ∨ n = 0) ∧ ¬ IsStart (lead :: rest) := by
    unfold head at h
    split at h
    · rename_i hnone
      obtain rfl := Head.broken.inj h
      have hno : ∀ front, ¬ IsStart (lead :: front) := by
        intro front hfront
        obtain ⟨ranges, hranges, -⟩ := isStart_cons_iff.1 hfront
        rw [hnone] at hranges
        cases hranges
      exact ⟨Nat.zero_le _, fun m _ hm => absurd hm (hno _), .inr rfl, hno rest⟩
    · rename_i ranges hranges
      dsimp only at h
      split_ifs at h with hall hend
      obtain rfl := Head.broken.inj h
      have hle := matching_le_right ranges rest
      refine ⟨hle, fun m hm hstart => ?_,
        .inl ((isStart_take_iff hle).2 ⟨ranges, hranges, Nat.le_refl _⟩), fun hstart => ?_⟩
      · obtain ⟨ranges', hranges', hle'⟩ := (isStart_take_iff hm).1 hstart
        rw [hranges] at hranges'
        obtain rfl := Option.some.inj hranges'
        exact hle'
      · obtain ⟨ranges', hranges', heq⟩ := isStart_cons_iff.1 hstart
        rw [hranges] at hranges'
        obtain rfl := Option.some.inj hranges'
        exact hend heq
  obtain ⟨hn, hmost, hstart, hwhole⟩ := hcases
  have hlength : (lead :: rest.take n).length = n + 1 := by
    rw [List.length_cons, List.length_take, Nat.min_eq_left hn]
  refine ⟨⟨?_, List.cons_ne_nil _ _, ?_, ?_⟩, fun h => hwhole h.isStart, hn⟩
  · exact ⟨rest.drop n, congrArg (lead :: ·) (List.take_append_drop n rest)⟩
  · rw [hlength]
    exact hstart.imp_right (congrArg Nat.succ)
  · intro longer hlonger hstart
    rw [hlength]
    rcases List.prefix_cons_iff.1 hlonger with rfl | ⟨front, rfl, hfront⟩
    · exact Nat.zero_le _
    · rw [List.prefix_iff_eq_take.1 hfront] at hstart
      exact Nat.succ_le_succ (hmost front.length hfront.length_le hstart)

/-- Where no character stands, a maximal part breaks off or is all there is. -/
theorem head_of_stuck (h : Stuck (lead :: rest)) (hpart : IsMaximalPart (lead :: rest) part) :
    (∃ n, head lead rest = .broken n ∧ part = lead :: rest.take n) ∨
      (head lead rest = .unfinished ∧ part = lead :: rest) := by
  cases hhead : head lead rest with
  | character c n => exact absurd hhead (head_ne_of_stuck h)
  | broken n => exact .inl ⟨n, rfl, hpart.unique (isMaximalPart_of_broken hhead).1⟩
  | unfinished => exact .inr ⟨rfl, hpart.unique (isMaximalPart_of_unfinished hhead).1⟩

/-! ### The longest valid prefix -/

theorem encodeChar_append_inj {more more' : List UInt8}
    (h : String.utf8EncodeChar c ++ more = String.utf8EncodeChar d ++ more') :
    c = d ∧ more = more' := by
  obtain ⟨lead, front, hc⟩ := List.exists_cons_of_ne_nil (String.utf8EncodeChar_ne_nil (c := c))
  obtain ⟨lead', front', hd⟩ := List.exists_cons_of_ne_nil (String.utf8EncodeChar_ne_nil (c := d))
  rw [hc, hd, List.cons_append, List.cons_append] at h
  obtain ⟨rfl, htail⟩ := List.cons.inj h
  have hhead := head_of_encode hc more
  rw [htail, head_of_encode hd more'] at hhead
  obtain ⟨rfl, hlength⟩ := Head.character.inj hhead
  exact ⟨rfl, (List.append_inj htail hlength.symm).2⟩

theorem encode_cons (c : Char) (cs : List Char) :
    encode (c :: cs) = String.utf8EncodeChar c ++ encode cs := List.flatMap_cons

/-- No prefix that reaches beyond a place where no character stands is a text. -/
theorem length_le_of_stuck (h : Stuck rest) (hds : encode ds <+: encode cs ++ rest) :
    (encode ds).length ≤ (encode cs).length := by
  induction ds generalizing cs with
  | nil => exact Nat.zero_le _
  | cons d ds ih =>
    obtain ⟨more, hmore⟩ := hds
    rw [encode_cons, List.append_assoc] at hmore
    cases cs with
    | nil => exact absurd ⟨_, hmore⟩ (h.2 d)
    | cons c cs =>
      -- both texts begin with one character, and what is behind it begins with the shorter texts
      rw [encode_cons, List.append_assoc] at hmore
      obtain ⟨rfl, htail⟩ := encodeChar_append_inj hmore
      have hle := ih ⟨more, htail⟩
      simp only [encode_cons, List.length_append]
      omega

theorem isLongestText_of_stuck (h : Stuck rest) :
    IsLongestText (encode cs ++ rest) (encode cs).length := by
  refine ⟨by rw [List.length_append]; omega, ⟨cs, List.take_left⟩, ?_⟩
  rintro m hlt hle ⟨ds, hds⟩
  have hprefix : encode ds <+: encode cs ++ rest := hds ▸ List.take_prefix m _
  have hlength : (encode ds).length = m := by rw [← hds, List.length_take, Nat.min_eq_left hle]
  have := length_le_of_stuck h hprefix
  omega

/-! ### Faults -/

/-- The fault tells where the longest valid prefix ends, and whether some character begins with all
the rest.  If none does, it tells the length of the maximal part there. -/
def Fault.Describes (bytes : List UInt8) : Fault → Prop
  | .invalid position length =>
    IsLongestText bytes position ∧ ¬ IsUnfinished (bytes.drop position) ∧
      ∃ part, IsMaximalPart (bytes.drop position) part ∧ part.length = length
  | .incomplete position => IsLongestText bytes position ∧ IsUnfinished (bytes.drop position)

theorem Fault.Describes.unique {fault' : Fault} (h : fault.Describes bytes)
    (h' : fault'.Describes bytes) : fault = fault' := by
  -- both faults lie behind the longest valid prefix, where the bytes are unfinished or not
  cases fault with
  | invalid position length =>
    obtain ⟨hlongest, hbroken, part, hpart, rfl⟩ := h
    cases fault' with
    | invalid position' length' =>
      obtain ⟨hlongest', -, part', hpart', rfl⟩ := h'
      obtain rfl := hlongest.unique hlongest'
      rw [hpart.unique hpart']
    | incomplete position' =>
      obtain ⟨hlongest', hunfinished⟩ := h'
      obtain rfl := hlongest.unique hlongest'
      exact absurd hunfinished hbroken
  | incomplete position =>
    obtain ⟨hlongest, hunfinished⟩ := h
    cases fault' with
    | invalid position' length' =>
      obtain ⟨hlongest', hbroken, -⟩ := h'
      obtain rfl := hlongest.unique hlongest'
      exact absurd hunfinished hbroken
    | incomplete position' => rw [hlongest.unique h'.1]

theorem exists_of_decodeAt_error (h : decodeAt position bytes = .error fault) :
    ∃ cs lead rest, bytes = encode cs ++ lead :: rest ∧
      ((∃ n, head lead rest = .broken n ∧
          fault = .invalid (position + (encode cs).length) (n + 1)) ∨
        (head lead rest = .unfinished ∧ fault = .incomplete (position + (encode cs).length))) := by
  fun_induction decodeAt position bytes with
  | case1 => cases h
  | case2 position lead rest c n hhead ih =>
    cases hrest : decodeAt (position + n + 1) (rest.drop n) with
    | ok ds =>
      rw [hrest] at h
      cases h
    | error fault' =>
      rw [hrest] at h
      obtain rfl := Except.error.inj h
      obtain ⟨cs, lead', rest', hbytes, hfault⟩ := ih hrest
      have hc := encode_of_head hhead
      -- the next character has not run out, since a place behind it is named
      have hn : n = (rest.take n).length := by
        have hdrop := congrArg List.length hbytes
        rw [List.length_drop, List.length_append, List.length_cons] at hdrop
        rw [List.length_take]
        omega
      have hposition :
          position + (encode (c :: cs)).length = position + n + 1 + (encode cs).length := by
        rw [encode_cons, List.length_append, hc, List.length_cons, ← hn]
        omega
      refine ⟨c :: cs, lead', rest', ?_, ?_⟩
      · rw [encode_cons, hc, List.append_assoc, ← hbytes, List.cons_append,
          List.take_append_drop]
      · rwa [hposition]
  | case3 position lead rest n hhead =>
    exact ⟨[], lead, rest, rfl, .inl ⟨n, hhead, (Except.error.inj h).symm⟩⟩
  | case4 position lead rest hhead =>
    exact ⟨[], lead, rest, rfl, .inr ⟨hhead, (Except.error.inj h).symm⟩⟩

theorem describes_of_decode_error (h : decode bytes = .error fault) : fault.Describes bytes := by
  obtain ⟨cs, lead, rest, rfl, hfault⟩ := exists_of_decodeAt_error h
  rcases hfault with ⟨n, hhead, rfl⟩ | ⟨hhead, rfl⟩
  · obtain ⟨hpart, hbroken, hn⟩ := isMaximalPart_of_broken hhead
    rw [Nat.zero_add]
    refine ⟨isLongestText_of_stuck (stuck_of_broken hhead), by rwa [List.drop_left],
      lead :: rest.take n, by rwa [List.drop_left], ?_⟩
    rw [List.length_cons, List.length_take, Nat.min_eq_left hn]
  · rw [Nat.zero_add]
    refine ⟨isLongestText_of_stuck (stuck_of_unfinished hhead), ?_⟩
    rw [List.drop_left]
    exact (isMaximalPart_of_unfinished hhead).2

theorem isText_iff : IsText bytes ↔ ∃ cs, decode bytes = .ok cs := by
  simp only [IsText, decode_eq_ok_iff]

/-- **Decoding stops where the longest valid prefix ends**, and finds the input incomplete if and
only if some character begins with all the rest. -/
theorem decode_eq_error_iff :
    decode bytes = .error fault ↔ ¬ IsText bytes ∧ fault.Describes bytes := by
  constructor
  · intro h
    refine ⟨fun htext => ?_, describes_of_decode_error h⟩
    obtain ⟨cs, hcs⟩ := isText_iff.1 htext
    rw [h] at hcs
    cases hcs
  · rintro ⟨htext, hfault⟩
    cases h : decode bytes with
    | ok cs => exact absurd (isText_iff.2 ⟨cs, h⟩) htext
    | error fault' => rw [(describes_of_decode_error h).unique hfault]

/-! ### Replacement -/

/-- The characters of some bytes, with one U+FFFD for each maximal part at which no character
stands. -/
inductive Replaces : List UInt8 → List Char → Prop
  | nil : Replaces [] []
  | character (c : Char) {rest : List UInt8} {cs : List Char} :
    Replaces rest cs → Replaces (String.utf8EncodeChar c ++ rest) (c :: cs)
  | part {part rest : List UInt8} {cs : List Char} :
    Stuck (part ++ rest) → IsMaximalPart (part ++ rest) part → Replaces rest cs →
      Replaces (part ++ rest) (Char.ofNat 0xfffd :: cs)

theorem replaces_lossy (bytes : List UInt8) : Replaces bytes (lossy bytes) := by
  -- the cases are those of the decoder: a character, a byte out of its range, no byte at all
  fun_induction lossy bytes with
  | case1 => exact .nil
  | case2 lead rest c n hhead ih =>
    have h := Replaces.character c ih
    rwa [encode_of_head hhead, List.cons_append, List.take_append_drop] at h
  | case3 lead rest n hhead ih =>
    have hbytes : lead :: rest.take n ++ rest.drop n = lead :: rest := by
      rw [List.cons_append, List.take_append_drop]
    rw [← hbytes]
    refine .part ?_ ?_ ih <;> rw [hbytes]
    · exact stuck_of_broken hhead
    · exact (isMaximalPart_of_broken hhead).1
  | case4 lead rest hhead =>
    rw [← List.append_nil (lead :: rest)]
    refine .part ?_ ?_ .nil <;> rw [List.append_nil]
    · exact stuck_of_unfinished hhead
    · exact (isMaximalPart_of_unfinished hhead).1

/-- **The lossy text has the characters of the bytes, and one U+FFFD for each maximal part that is
none.** -/
theorem replaces_iff : Replaces bytes cs ↔ cs = lossy bytes := by
  constructor
  · intro h
    induction h with
    | nil => rw [lossy]
    | character c _ ih =>
      obtain ⟨lead, front, hc⟩ :=
        List.exists_cons_of_ne_nil (String.utf8EncodeChar_ne_nil (c := c))
      rw [hc, List.cons_append, lossy, head_of_encode hc]
      dsimp only
      rw [List.drop_left, ih]
    | @part part rest cs hstuck hpart _ ih =>
      obtain ⟨lead, front, rfl⟩ := List.exists_cons_of_ne_nil hpart.ne_nil
      rw [List.cons_append] at hstuck hpart ⊢
      rcases head_of_stuck hstuck hpart with ⟨n, hhead, heq⟩ | ⟨hhead, heq⟩
      · have hrest : (front ++ rest).drop n = rest := by
          have hfront := (List.cons.inj heq).2
          have happend := List.take_append_drop n (front ++ rest)
          rw [← hfront] at happend
          exact List.append_cancel_left happend
        rw [lossy, hhead]
        dsimp only
        rw [hrest, ih]
      · have hrest : rest = [] := List.self_eq_append_right.1 (List.cons.inj heq).2
        rw [lossy, hhead, ih, hrest, lossy]
  · rintro rfl
    exact replaces_lossy bytes

end Utf8

end CliffordT
