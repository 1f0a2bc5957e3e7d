import Custody.Binary
import Custody.Bytes.Lemmas

set_option autoImplicit false

/-! # What is written is what is read

For each layout one law, `Binary.Exact`: reading takes a value off the front of some bytes exactly
when they start with what is written of that value. Lengths are written in eight bytes, so byte
strings and lists must be shorter than `2 ^ 64`, and that is all that is asked of a value. The law
of a record follows from those of its fields by `Exact.bind_eq_ok`, and `Exact.faithful` has what it
comes to for those who only see whole byte strings. -/

namespace Custody.Binary

/-- The decoder takes off the front of some bytes exactly what is written of a sized value, and
    leaves the rest as it is. -/
def Exact {α : Type} (encode : α → Bytes) (decode : Decoder α) (Sized : α → Prop) : Prop :=
  ∀ bytes x rest, decode bytes = .ok (x, rest) ↔ Sized x ∧ bytes = encode x ++ rest

section Exact

variable {α β : Type} {encode : α → Bytes} {decode : Decoder α} {Sized : α → Prop}

theorem Exact.decode_encode (h : Exact encode decode Sized) {x : α} (hx : Sized x)
    (rest : Bytes) : decode (encode x ++ rest) = .ok (x, rest) :=
  (h _ _ _).2 ⟨hx, rfl⟩

/-- A decoder that goes on after one that is exact. -/
theorem Exact.bind_eq_ok (h : Exact encode decode Sized) {bytes : Bytes}
    {f : α × Bytes → Except Fault β} {y : β} : (decode bytes >>= f) = .ok y ↔
      ∃ x rest, Sized x ∧ bytes = encode x ++ rest ∧ f (x, rest) = .ok y := by
  constructor
  · intro hbind
    cases hdecode : decode bytes with
    | error fault =>
      rw [hdecode] at hbind
      exact absurd hbind (by simp [bind, Except.bind])
    | ok read =>
      rw [hdecode] at hbind
      obtain ⟨hsized, hbytes⟩ := (h bytes read.1 read.2).1 hdecode
      exact ⟨read.1, read.2, hsized, hbytes, hbind⟩
  · rintro ⟨x, rest, hsized, rfl, hf⟩
    rw [h.decode_encode hsized]
    exact hf

theorem Decoder.run_eq_ok_iff {bytes : Bytes} {x : α} :
    decode.run bytes = .ok x ↔ ∃ rest, decode bytes = .ok (x, rest) := by
  unfold Decoder.run
  cases decode bytes with
  | error fault => simp [Except.map]
  | ok read =>
    obtain ⟨y, rest⟩ := read
    simp [Except.map]

theorem Exact.run_eq_ok_iff (h : Exact encode decode Sized) {bytes : Bytes} {x : α} :
    decode.run bytes = .ok x ↔ Sized x ∧ ∃ rest, bytes = encode x ++ rest := by
  simp only [Decoder.run_eq_ok_iff, h bytes x, exists_and_left]

/-- What a layout promises to those who see whole byte strings. -/
structure Faithful {α : Type} (encode : α → Bytes) (decode : Decoder α) (Sized : α → Prop) :
    Prop where
  /-- What is written is read back, whatever follows it. -/
  read_back : ∀ x rest, Sized x → decode.run (encode x ++ rest) = .ok x
  /-- What is read is at the front of the bytes, as it would be written. -/
  written : ∀ bytes x, decode.run bytes = .ok x → Sized x ∧ ∃ rest, bytes = encode x ++ rest
  /-- No value is written as the beginning of another one. -/
  prefix_free : ∀ x y, Sized x → Sized y → encode x <+: encode y → x = y
  /-- Bytes that end within a value are refused. -/
  refuses_part : ∀ x bytes, Sized x → bytes <+: encode x → bytes ≠ encode x →
    ∃ fault, decode.run bytes = .error fault
  /-- So are all bytes that do not start with a value, whatever lengths they declare. -/
  refuses_other : ∀ bytes, (∀ x rest, Sized x → bytes ≠ encode x ++ rest) →
    ∃ fault, decode.run bytes = .error fault
  /-- No value is read of fewer bytes than are written of it. -/
  length_le : ∀ bytes x, decode.run bytes = .ok x → (encode x).length ≤ bytes.length

theorem Exact.refuses_other (h : Exact encode decode Sized) {bytes : Bytes}
    (hbytes : ∀ x rest, Sized x → bytes ≠ encode x ++ rest) :
    ∃ fault, decode.run bytes = .error fault := by
  cases hrun : decode.run bytes with
  | error fault => exact ⟨fault, rfl⟩
  | ok x =>
    obtain ⟨hx, rest, heq⟩ := h.run_eq_ok_iff.1 hrun
    exact absurd heq (hbytes x rest hx)

/-- Two values at the front of the same bytes are the same value. -/
theorem Exact.eq_of_append_eq (h : Exact encode decode Sized) {x y : α} {rest rest' : Bytes}
    (hx : Sized x) (hy : Sized y) (heq : encode x ++ rest = encode y ++ rest') :
    x = y ∧ rest = rest' := by
  have hdecode := h.decode_encode hx rest
  rw [heq, h.decode_encode hy rest'] at hdecode
  cases hdecode
  exact ⟨rfl, rfl⟩

/-- An exact layout is faithful. -/
theorem Exact.faithful (h : Exact encode decode Sized) : Faithful encode decode Sized where
  read_back := fun x rest hx => h.run_eq_ok_iff.2 ⟨hx, rest, rfl⟩
  written := fun bytes x hrun => h.run_eq_ok_iff.1 hrun
  prefix_free := by
    rintro x y hx hy ⟨rest, heq⟩
    exact (h.eq_of_append_eq hx hy (heq.trans (List.append_nil _).symm)).1
  refuses_part := by
    rintro x bytes hx ⟨missing, heq⟩ hne
    refine h.refuses_other fun y rest hy hbytes => ?_
    -- a value in a part of what is written of `x` would be `x` with nothing missing
    rw [hbytes, List.append_assoc, ← List.append_nil (encode x)] at heq
    obtain ⟨rfl, hrest⟩ := h.eq_of_append_eq hy hx heq
    rw [(List.append_eq_nil_iff.1 hrest).1, List.append_nil] at hbytes
    exact hne hbytes
  refuses_other := fun bytes hbytes => h.refuses_other hbytes
  length_le := by
    intro bytes x hrun
    obtain ⟨-, rest, rfl⟩ := h.run_eq_ok_iff.1 hrun
    rw [List.length_append]
    exact Nat.le_add_right _ _

/-- Of bytes that are one value and nothing else, that value is read. -/
theorem Exact.run_encode (h : Exact encode decode Sized) {x : α} (hx : Sized x) :
    decode.run (encode x) = .ok x :=
  h.run_eq_ok_iff.2 ⟨hx, [], (List.append_nil _).symm⟩

end Exact

/-- A record of two fields, written one after the other. -/
theorem Exact.pair {α β γ : Type} {encodeFst : α → Bytes} {decodeFst : Decoder α}
    {SizedFst : α → Prop} {encodeSnd : β → Bytes} {decodeSnd : Decoder β} {SizedSnd : β → Prop}
    {Sized : γ → Prop} (hfst : Exact encodeFst decodeFst SizedFst)
    (hsnd : Exact encodeSnd decodeSnd SizedSnd) (make : α → β → γ) (fst : γ → α) (snd : γ → β)
    (hfields : ∀ x y, fst (make x y) = x ∧ snd (make x y) = y)
    (hmake : ∀ z, make (fst z) (snd z) = z)
    (hsized : ∀ z, Sized z ↔ SizedFst (fst z) ∧ SizedSnd (snd z)) :
    Exact (fun z => encodeFst (fst z) ++ encodeSnd (snd z))
      (fun bytes => do
        let (x, rest) ← decodeFst bytes
        let (y, rest) ← decodeSnd rest
        return (make x y, rest)) Sized := by
  intro bytes z rest
  simp only [hfst.bind_eq_ok, hsnd.bind_eq_ok, List.append_assoc, hsized]
  constructor
  · rintro ⟨x, _, hx, rfl, y, _, hy, rfl, hpure⟩
    cases hpure
    rw [(hfields x y).1, (hfields x y).2]
    exact ⟨⟨hx, hy⟩, rfl⟩
  · rintro ⟨⟨hx, hy⟩, rfl⟩
    refine ⟨_, _, hx, rfl, _, _, hy, rfl, ?_⟩
    rw [hmake]
    rfl

/-! ## Numbers and blocks -/

theorem decodeExactly_eq_ok_iff {n : Nat} {fault : Fault} {bytes front rest : Bytes} :
    decodeExactly n fault bytes = .ok (front, rest) ↔ front.length = n ∧ bytes = front ++ rest := by
  unfold decodeExactly
  simp only [List.splitAt_eq]
  constructor
  · intro h
    split at h
    · rename_i hlength
      cases h
      exact ⟨hlength, (List.take_append_drop n bytes).symm⟩
    · exact absurd h (by simp)
  · rintro ⟨rfl, rfl⟩
    simp

theorem exact_exactly (n : Nat) (fault : Fault) :
    Exact id (decodeExactly n fault) (·.length = n) :=
  fun _ _ _ => decodeExactly_eq_ok_iff

theorem exact_nat (width : Nat) :
    Exact (Bytes.ofNat width) (decodeNat width) (· < 256 ^ width) := by
  intro bytes n rest
  unfold decodeNat
  rw [(exact_exactly width .endOfInput).bind_eq_ok]
  constructor
  · rintro ⟨front, rest', rfl, rfl, hpure⟩
    cases hpure
    exact ⟨Bytes.toNat_lt front, by rw [Bytes.ofNat_toNat]; rfl⟩
  · rintro ⟨hn, rfl⟩
    refine ⟨Bytes.ofNat width n, rest, Bytes.length_ofNat width n, rfl, ?_⟩
    show Except.ok (Bytes.toNat (Bytes.ofNat width n), rest) = _
    rw [Bytes.toNat_ofNat, Nat.mod_eq_of_lt hn]

theorem exact_length : Exact encodeLength (decodeNat 8) (· < 2 ^ 64) := exact_nat 8

theorem exact_uint32 : Exact encodeUInt32 decodeUInt32 fun _ => True := by
  intro bytes n rest
  unfold decodeUInt32
  rw [(exact_nat 4).bind_eq_ok]
  constructor
  · rintro ⟨m, rest', hm, rfl, hpure⟩
    cases hpure
    refine ⟨trivial, ?_⟩
    rw [encodeUInt32, UInt32.toNat_ofNat_of_lt' hm]
  · rintro ⟨-, rfl⟩
    refine ⟨n.toNat, rest, n.toNat_lt, rfl, ?_⟩
    show Except.ok (UInt32.ofNat n.toNat, rest) = _
    rw [UInt32.ofNat_toNat]

theorem exact_uint64 : Exact encodeUInt64 decodeUInt64 fun _ => True := by
  intro bytes n rest
  unfold decodeUInt64
  rw [(exact_nat 8).bind_eq_ok]
  constructor
  · rintro ⟨m, rest', hm, rfl, hpure⟩
    cases hpure
    refine ⟨trivial, ?_⟩
    rw [encodeUInt64, UInt64.toNat_ofNat_of_lt' hm]
  · rintro ⟨-, rfl⟩
    refine ⟨n.toNat, rest, n.toNat_lt, rfl, ?_⟩
    show Except.ok (UInt64.ofNat n.toNat, rest) = _
    rw [UInt64.ofNat_toNat]

theorem exact_block (n : Nat) : Exact Subtype.val (decodeBlock n) fun _ => True := by
  intro bytes block rest
  unfold decodeBlock
  rw [(exact_exactly n .endOfInput).bind_eq_ok]
  constructor
  · rintro ⟨front, rest', -, rfl, hpure⟩
    cases hblock : Block.ofBytes? n front with
    | none =>
      simp only [hblock] at hpure
      exact absurd hpure (by simp [throw, throwThe, MonadExceptOf.throw])
    | some block' =>
      simp only [hblock] at hpure
      cases hpure
      rw [Block.ofBytes?_eq_some_iff.1 hblock]
      exact ⟨trivial, rfl⟩
  · rintro ⟨-, rfl⟩
    refine ⟨block.val, rest, block.property, rfl, ?_⟩
    simp only [Block.ofBytes?_eq_some_iff.2 rfl]
    rfl

/-! ## Byte strings, texts and lists -/

theorem exact_bytes : Exact encodeBytes decodeBytes (·.length < 2 ^ 64) := by
  intro bytes x rest
  unfold decodeBytes
  simp only [exact_length.bind_eq_ok, decodeExactly_eq_ok_iff, encodeBytes, List.append_assoc]
  constructor
  · rintro ⟨n, rest', hn, rfl, rfl, rfl⟩
    exact ⟨hn, rfl⟩
  · rintro ⟨hlength, rfl⟩
    exact ⟨x.length, x ++ rest, hlength, rfl, rfl, rfl⟩

theorem exact_text :
    Exact encodeText decodeText fun text => (Utf8.encode text).length < 2 ^ 64 := by
  intro bytes text rest
  unfold decodeText
  simp only [exact_length.bind_eq_ok, (exact_exactly _ _).bind_eq_ok, encodeText, encodeBytes,
    List.append_assoc]
  constructor
  · rintro ⟨n, rest', hn, rfl, front, rest'', rfl, rfl, hpure⟩
    cases hdecode : Utf8.decode front with
    | error fault =>
      rw [hdecode] at hpure
      exact absurd hpure (by simp [throw, throwThe, MonadExceptOf.throw])
    | ok text' =>
      rw [hdecode] at hpure
      cases hpure
      rw [Utf8.eq_encode_of_decode hdecode] at hn ⊢
      exact ⟨hn, rfl⟩
  · rintro ⟨hlength, rfl⟩
    refine ⟨_, _, hlength, rfl, Utf8.encode text, rest, rfl, rfl, ?_⟩
    rw [Utf8.decode_encode]
    rfl

section List

variable {α : Type} {encode : α → Bytes} {decode : Decoder α} {Sized : α → Prop}

theorem Exact.many (h : Exact encode decode Sized) {count : Nat} {acc ys : List α}
    {bytes rest : Bytes} : decodeMany decode count acc bytes = .ok (ys, rest) ↔
      ∃ xs : List α, xs.length = count ∧ (∀ x ∈ xs, Sized x) ∧ ys = acc.reverse ++ xs ∧
        bytes = xs.flatMap encode ++ rest := by
  induction count generalizing acc bytes with
  | zero =>
    constructor
    · intro hmany
      cases hmany
      exact ⟨[], rfl, by simp, by simp, rfl⟩
    · rintro ⟨xs, hlength, -, rfl, rfl⟩
      rw [List.length_eq_zero_iff.1 hlength]
      simp [decodeMany]
  | succ count ih =>
    constructor
    · intro hmany
      rw [decodeMany] at hmany
      split at hmany
      · rename_i x rest' hdecode
        obtain ⟨hx, rfl⟩ := (h _ _ _).1 hdecode
        obtain ⟨xs, rfl, hxs, rfl, rfl⟩ := ih.1 hmany
        exact ⟨x :: xs, rfl, List.forall_mem_cons.2 ⟨hx, hxs⟩, by simp, by simp⟩
      · exact absurd hmany (by simp)
    · rintro ⟨xs, hlength, hsized, rfl, rfl⟩
      cases xs with
      | nil => exact absurd hlength (by simp)
      | cons x xs =>
        obtain ⟨hx, hxs⟩ := List.forall_mem_cons.1 hsized
        rw [List.flatMap_cons, List.append_assoc, decodeMany, h.decode_encode hx]
        exact ih.2 ⟨xs, by simpa using hlength, hxs, by simp, rfl⟩

/-- Lists of an exact layout. -/
theorem Exact.list (h : Exact encode decode Sized) :
    Exact (encodeList encode) (decodeList decode)
      fun xs => xs.length < 2 ^ 64 ∧ ∀ x ∈ xs, Sized x := by
  intro bytes xs rest
  unfold decodeList
  simp only [exact_length.bind_eq_ok, h.many, encodeList, List.append_assoc]
  constructor
  · rintro ⟨n, rest', hn, rfl, xs', rfl, hsized, rfl, rfl⟩
    exact ⟨⟨hn, hsized⟩, rfl⟩
  · rintro ⟨⟨hlength, hsized⟩, rfl⟩
    exact ⟨xs.length, _, hlength, rfl, xs, rfl, hsized, rfl, rfl⟩

end List

end Custody.Binary
