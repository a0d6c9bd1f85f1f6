import CliffordT.Text.Utf8
import Mathlib.Data.List.Forall2

/-!
# Decoding inverts encoding

The bytes that are decoded are those of some text, and of one text only.

* `Utf8.followers_two`, `.followers_three`, `.followers_four` : the ranges behind a lead byte, by
  the length of its sequence;
* `Utf8.IsSequence` : a lead byte, and in each of the ranges behind it one byte;
* `Utf8.encode_character`, `Utf8.isSequence_encode` : the sequences are the encodings of the
  characters;
* `Utf8.head_of_encode`, `Utf8.encode_of_head` : a character is taken from the head of some bytes if
  its encoding stands there;
* `Utf8.decode_eq_ok_iff` : **bytes are decoded to a text if and only if they encode it.**
-/

namespace CliffordT

namespace Utf8

variable {lead : Nat}

/-! ### Ranges behind a lead byte -/

theorem followers_one (h : lead < 0x80) : followers lead = some [] := if_pos h

theorem followers_two (hlow : 0xc2 ≤ lead) (hhigh : lead < 0xe0) :
    followers lead = some [(0x80, 0xbf)] := by
  unfold followers
  dsimp only
  rw [if_neg (by omega), if_neg (by omega), if_pos hhigh]

/-- The first range keeps out overlong forms and surrogates. -/
theorem followers_three (hlow : 0xe0 ≤ lead) (hhigh : lead < 0xf0) :
    followers lead = some [(if lead = 0xe0 then 0xa0 else 0x80, if lead = 0xed then 0x9f else 0xbf),
      (0x80, 0xbf)] := by
  unfold followers
  dsimp only
  rw [if_neg (by omega), if_neg (by omega), if_neg (by omega)]
  split_ifs <;> first | rfl | omega

/-- The first range keeps out overlong forms and values above U+10FFFF. -/
theorem followers_four (hlow : 0xf0 ≤ lead) (hhigh : lead ≤ 0xf4) :
    followers lead = some [(if lead = 0xf0 then 0x90 else 0x80, if lead = 0xf4 then 0x8f else 0xbf),
      (0x80, 0xbf), (0x80, 0xbf)] := by
  unfold followers
  dsimp only
  rw [if_neg (by omega), if_neg (by omega), if_neg (by omega), if_neg (by omega),
    if_neg (by omega), if_neg (by omega)]
  split_ifs <;> first | rfl | omega

theorem lead_cases {ranges : List (Nat × Nat)} (h : followers lead = some ranges) :
    lead < 0x80 ∨ (0xc2 ≤ lead ∧ lead < 0xe0) ∨ (0xe0 ≤ lead ∧ lead < 0xf0) ∨
      (0xf0 ≤ lead ∧ lead ≤ 0xf4) := by
  unfold followers at h
  dsimp only at h
  split_ifs at h <;> omega

/-! ### Sequences -/

/-- A byte in a range. -/
def InRange (r : Nat × Nat) (b : UInt8) : Prop := r.1 ≤ b.toNat ∧ b.toNat ≤ r.2

/-- A lead byte, and behind it one byte in each of its ranges. -/
def IsSequence (lead : UInt8) (front : List UInt8) : Prop :=
  ∃ ranges, followers lead.toNat = some ranges ∧ List.Forall₂ InRange ranges front

theorem matching_append {ranges : List (Nat × Nat)} {front : List UInt8}
    (h : List.Forall₂ InRange ranges front) (rest : List UInt8) :
    matching ranges (front ++ rest) = ranges.length := by
  induction h with
  | nil => cases rest <;> rfl
  | cons hb _ ih =>
    rw [List.cons_append, matching]
    exact (if_pos hb).trans (congrArg Nat.succ ih)

theorem forall₂_of_matching {ranges : List (Nat × Nat)} {bytes : List UInt8}
    (h : matching ranges bytes = ranges.length) :
    List.Forall₂ InRange ranges (bytes.take ranges.length) := by
  induction ranges generalizing bytes with
  | nil => exact .nil
  | cons r ranges ih =>
    cases bytes with
    | nil => cases h
    | cons b bytes =>
      rw [matching] at h
      split_ifs at h with hb
      exact .cons hb (ih (Nat.succ.inj h))

/-! ### Characters -/

theorem val_ofNat {v : Nat} (h : v < 0xd800 ∨ 0xdfff < v ∧ v < 0x110000) :
    (Char.ofNat v).val.toNat = v := by
  have hv : v.isValidChar := h
  rw [Char.ofNat, dif_pos hv]
  rfl

theorem ofNat_byte {n : Nat} {b : UInt8} (h : n = b.toNat) : UInt8.ofNat n = b := by
  rw [h, UInt8.ofNat_toNat]

/-- A sequence is the encoding of its character. -/
theorem encode_character {lead : UInt8} {front : List UInt8} (h : IsSequence lead front) :
    String.utf8EncodeChar (character lead.toNat front) = lead :: front := by
  obtain ⟨ranges, hranges, hfront⟩ := h
  -- by the number of bytes; the ranges keep overlong forms and surrogates out
  obtain hlead | ⟨hlow, hhigh⟩ | ⟨hlow, hhigh⟩ | ⟨hlow, hhigh⟩ := lead_cases hranges
  · rw [followers_one hlead] at hranges
    obtain rfl := Option.some.inj hranges
    cases hfront
    show String.utf8EncodeChar (Char.ofNat lead.toNat) = _
    rw [String.utf8EncodeChar, val_ofNat (by omega), if_pos (by omega), UInt8.ofNat_toNat]
  · rw [followers_two hlow hhigh] at hranges
    obtain rfl := Option.some.inj hranges
    obtain _ | @⟨_, b, _, _, ⟨hb, hb'⟩, ⟨⟩⟩ := hfront
    dsimp only at hb hb'
    show String.utf8EncodeChar (Char.ofNat (lead.toNat % 32 * 64 + b.toNat % 64)) = _
    rw [String.utf8EncodeChar, val_ofNat (by omega), if_neg (by omega), if_pos (by omega),
      ofNat_byte (b := lead) (by omega), ofNat_byte (b := b) (by omega)]
  · rw [followers_three hlow hhigh] at hranges
    obtain rfl := Option.some.inj hranges
    obtain _ | @⟨_, b, _, _, ⟨hb, hb'⟩, _ | @⟨_, c, _, _, ⟨hc, hc'⟩, ⟨⟩⟩⟩ := hfront
    dsimp only at hb hb' hc hc'
    have hoverlong : lead.toNat = 0xe0 → 0xa0 ≤ b.toNat := fun h => by rwa [if_pos h] at hb
    have hsurrogate : lead.toNat = 0xed → b.toNat ≤ 0x9f := fun h => by rwa [if_pos h] at hb'
    have hrange : 0x80 ≤ b.toNat ∧ b.toNat ≤ 0xbf := by split_ifs at hb hb' <;> omega
    show String.utf8EncodeChar
      (Char.ofNat ((lead.toNat % 16 * 64 + b.toNat % 64) * 64 + c.toNat % 64)) = _
    rw [String.utf8EncodeChar, val_ofNat (by omega), if_neg (by omega), if_neg (by omega),
      if_pos (by omega), ofNat_byte (b := lead) (by omega), ofNat_byte (b := b) (by omega),
      ofNat_byte (b := c) (by omega)]
  · rw [followers_four hlow hhigh] at hranges
    obtain rfl := Option.some.inj hranges
    obtain _ | @⟨_, b, _, _, ⟨hb, hb'⟩, _ | @⟨_, c, _, _, ⟨hc, hc'⟩,
      _ | @⟨_, d, _, _, ⟨hd, hd'⟩, ⟨⟩⟩⟩⟩ := hfront
    dsimp only at hb hb' hc hc' hd hd'
    have hoverlong : lead.toNat = 0xf0 → 0x90 ≤ b.toNat := fun h => by rwa [if_pos h] at hb
    have hlarge : lead.toNat = 0xf4 → b.toNat ≤ 0x8f := fun h => by rwa [if_pos h] at hb'
    have hrange : 0x80 ≤ b.toNat ∧ b.toNat ≤ 0xbf := by split_ifs at hb hb' <;> omega
    show String.utf8EncodeChar (Char.ofNat
      (((lead.toNat % 8 * 64 + b.toNat % 64) * 64 + c.toNat % 64) * 64 + d.toNat % 64)) = _
    rw [String.utf8EncodeChar, val_ofNat (by omega), if_neg (by omega), if_neg (by omega),
      if_neg (by omega), ofNat_byte (b := lead) (by omega), ofNat_byte (b := b) (by omega),
      ofNat_byte (b := c) (by omega), ofNat_byte (b := d) (by omega)]

theorem toNat_ofNat_byte {n : Nat} (h : n < 256) : (UInt8.ofNat n).toNat = n := by
  rw [UInt8.toNat_ofNat', Nat.mod_eq_of_lt h]

theorem inRange_follower (n : Nat) : InRange (0x80, 0xbf) (UInt8.ofNat (n % 64 + 128)) := by
  rw [InRange, toNat_ofNat_byte (by omega)]
  dsimp only
  omega

/-- The encoding of a character is a sequence of that character. -/
theorem isSequence_encode {c : Char} {lead : UInt8} {front : List UInt8}
    (h : String.utf8EncodeChar c = lead :: front) :
    IsSequence lead front ∧ character lead.toNat front = c := by
  have hvalid : c.val.toNat < 0xd800 ∨ 0xdfff < c.val.toNat ∧ c.val.toNat < 0x110000 := c.valid
  have hc : ∀ n, n = c.val.toNat → Char.ofNat n = c := fun n hn => by
    rw [hn]
    exact Char.ofNat_toNat c
  rw [String.utf8EncodeChar] at h
  generalize c.val.toNat = v at hvalid hc h
  -- by the number of bytes, which the size of the character decides
  split_ifs at h with h1 h2 h3
  · obtain ⟨rfl, rfl⟩ := List.cons.inj h
    have hlead := toNat_ofNat_byte (n := v) (by omega)
    exact ⟨⟨_, followers_one (by omega), .nil⟩, hc _ hlead⟩
  · obtain ⟨rfl, rfl⟩ := List.cons.inj h
    have hlead := toNat_ofNat_byte (n := v / 64 % 32 + 192) (by omega)
    have hb := toNat_ofNat_byte (n := v % 64 + 128) (by omega)
    refine ⟨⟨_, followers_two (by omega) (by omega), .cons (inRange_follower v) .nil⟩, hc _ ?_⟩
    · show (UInt8.ofNat _).toNat % 32 * 64 + (UInt8.ofNat _).toNat % 64 = v
      omega
  · obtain ⟨rfl, rfl⟩ := List.cons.inj h
    have hlead := toNat_ofNat_byte (n := v / 4096 % 16 + 224) (by omega)
    have hb := toNat_ofNat_byte (n := v / 64 % 64 + 128) (by omega)
    have hb' := toNat_ofNat_byte (n := v % 64 + 128) (by omega)
    refine ⟨⟨_, followers_three (by omega) (by omega),
      .cons ⟨?_, ?_⟩ (.cons (inRange_follower v) .nil)⟩, hc _ ?_⟩
    · show (if _ then 0xa0 else 0x80) ≤ _
      split_ifs <;> omega
    · show _ ≤ (if _ then 0x9f else 0xbf)
      split_ifs <;> omega
    · show ((UInt8.ofNat _).toNat % 16 * 64 + (UInt8.ofNat _).toNat % 64) * 64 +
        (UInt8.ofNat _).toNat % 64 = v
      omega
  · obtain ⟨rfl, rfl⟩ := List.cons.inj h
    have hlead := toNat_ofNat_byte (n := v / 262144 % 8 + 240) (by omega)
    have hb := toNat_ofNat_byte (n := v / 4096 % 64 + 128) (by omega)
    have hb' := toNat_ofNat_byte (n := v / 64 % 64 + 128) (by omega)
    have hb'' := toNat_ofNat_byte (n := v % 64 + 128) (by omega)
    refine ⟨⟨_, followers_four (by omega) (by omega),
      .cons ⟨?_, ?_⟩ (.cons (inRange_follower (v / 64)) (.cons (inRange_follower v) .nil))⟩,
      hc _ ?_⟩
    · show (if _ then 0x90 else 0x80) ≤ _
      split_ifs <;> omega
    · show _ ≤ (if _ then 0x8f else 0xbf)
      split_ifs <;> omega
    · show (((UInt8.ofNat _).toNat % 8 * 64 + (UInt8.ofNat _).toNat % 64) * 64 +
        (UInt8.ofNat _).toNat % 64) * 64 + (UInt8.ofNat _).toNat % 64 = v
      omega

theorem of_mem_utf8EncodeChar {c : Char} {b : UInt8} (hb : b.toNat < 0x80)
    (h : b ∈ String.utf8EncodeChar c) : c.toNat = b.toNat := by
  have hlimit : c.val.toNat < 0x110000 := by
    have := c.valid
    omega
  have hgreat : ∀ w, 0x80 ≤ w → w < 0x100 → b ≠ UInt8.ofNat w := by
    rintro w hw hbyte rfl
    rw [toNat_ofNat_byte hbyte] at hb
    omega
  show c.val.toNat = b.toNat
  rw [String.utf8EncodeChar] at h
  generalize c.val.toNat = v at hlimit h
  split_ifs at h with h1 h2 h3 <;>
    simp only [List.mem_cons, List.not_mem_nil, or_false] at h
  · rw [h, toNat_ofNat_byte (by omega)]
  -- all bytes of a longer sequence are too great
  · rcases h with h | h <;> exact absurd h (hgreat _ (by omega) (by omega))
  · rcases h with h | h | h <;> exact absurd h (hgreat _ (by omega) (by omega))
  · rcases h with h | h | h | h <;> exact absurd h (hgreat _ (by omega) (by omega))

/-! ### Texts -/

variable {lead : UInt8} {front rest bytes : List UInt8} {c : Char} {cs : List Char}
  {position n : Nat}

/-- The encoding of a character is taken from the head of some bytes. -/
theorem head_of_encode (h : String.utf8EncodeChar c = lead :: front) (rest : List UInt8) :
    head lead (front ++ rest) = .character c front.length := by
  obtain ⟨⟨ranges, hranges, hfront⟩, hc⟩ := isSequence_encode h
  rw [head, hranges]
  dsimp only
  rw [matching_append hfront, if_pos rfl, hfront.length_eq, List.take_left, hc]

/-- What is taken from the head of some bytes is the encoding of a character. -/
theorem encode_of_head (h : head lead rest = .character c n) :
    String.utf8EncodeChar c = lead :: rest.take n := by
  unfold head at h
  split at h
  · cases h
  · rename_i ranges hranges
    dsimp only at h
    split_ifs at h with hall hend
    obtain ⟨rfl, rfl⟩ := Head.character.inj h
    have hfront := forall₂_of_matching hall
    rw [← hall] at hfront
    exact encode_character ⟨ranges, hranges, hfront⟩

theorem encode_append (cs ds : List Char) : encode (cs ++ ds) = encode cs ++ encode ds :=
  List.flatMap_append

theorem exists_encode_cons (c : Char) (cs : List Char) : ∃ lead front,
    String.utf8EncodeChar c = lead :: front ∧ encode (c :: cs) = lead :: (front ++ encode cs) := by
  obtain ⟨lead, front, hc⟩ := List.exists_cons_of_ne_nil (String.utf8EncodeChar_ne_nil (c := c))
  refine ⟨lead, front, hc, ?_⟩
  rw [encode, List.flatMap_cons, hc]
  rfl

theorem decodeAt_encode (position : Nat) (cs : List Char) :
    decodeAt position (encode cs) = .ok cs := by
  induction cs generalizing position with
  | nil => rw [encode, List.flatMap_nil, decodeAt]
  | cons c cs ih =>
    obtain ⟨lead, front, hc, hencode⟩ := exists_encode_cons c cs
    rw [hencode, decodeAt, head_of_encode hc]
    dsimp only
    rw [List.drop_left, ih]
    rfl

theorem lossy_encode (cs : List Char) : lossy (encode cs) = cs := by
  induction cs with
  | nil => rw [encode, List.flatMap_nil, lossy]
  | cons c cs ih =>
    obtain ⟨lead, front, hc, hencode⟩ := exists_encode_cons c cs
    rw [hencode, lossy, head_of_encode hc]
    dsimp only
    rw [List.drop_left, ih]

theorem eq_encode_of_decodeAt (h : decodeAt position bytes = .ok cs) : bytes = encode cs := by
  -- by the recursion of the decoder; in the other cases it fails
  fun_induction decodeAt position bytes generalizing cs with
  | case1 =>
    obtain rfl := Except.ok.inj h
    rfl
  | case2 position lead rest c n hhead ih =>
    cases hrest : decodeAt (position + n + 1) (rest.drop n) with
    | error fault =>
      rw [hrest] at h
      cases h
    | ok ds =>
      rw [hrest] at h
      obtain rfl := Except.ok.inj h
      rw [encode, List.flatMap_cons, encode_of_head hhead, List.cons_append]
      exact congrArg (lead :: ·) ((List.take_append_drop n rest).symm.trans
        (congrArg (rest.take n ++ ·) (ih hrest)))
  | _ => cases h

/-- **Bytes are decoded to a text if and only if they encode it.** -/
theorem decode_eq_ok_iff : decode bytes = .ok cs ↔ bytes = encode cs :=
  ⟨eq_encode_of_decodeAt, fun h => h ▸ decodeAt_encode 0 cs⟩

end Utf8

end CliffordT
