import WaylandWebStream.Lib.Bytes

/-!
# UTF-8 — encoding, strict decoding, decoding with replacement

`encode` and the strict `decode?` are the library's own, over byte lists.
`decodeLossy` is the decoder that never fails: byte by byte, with the
range the next byte must lie in, and one replacement character for every
maximal piece that starts no scalar value. On what `encode` writes the
two agree.
-/

namespace WaylandWebStream

namespace Utf8

/-- The UTF-8 bytes of a string. -/
def encode (s : String) : Bytes := s.toList.flatMap String.utf8EncodeChar

/-- The string the bytes encode, `none` where they encode none. -/
def decode? (bs : Bytes) : Option String :=
  bs.toByteArray.utf8Decode?.map fun cs => String.ofList cs.toList

theorem toByteArray_encode (s : String) : (encode s).toByteArray = s.toList.utf8Encode := rfl

@[simp] theorem decode?_encode (s : String) : decode? (encode s) = some s := by
  rw [decode?, toByteArray_encode, List.utf8Decode?_utf8Encode]
  simp

/-- **The bytes decoded are the bytes encoded**, and nothing else decodes. -/
theorem decode?_eq_some {bs : Bytes} {s : String} : decode? bs = some s ↔ bs = encode s := by
  constructor
  · intro h
    obtain ⟨cs, hcs, rfl⟩ := Option.map_eq_some_iff.1 h
    have henc : cs.toList.utf8Encode = bs.toByteArray := by
      have hget := ByteArray.utf8Encode_get_utf8Decode? (b := bs.toByteArray) (h := by simp [hcs])
      simpa [hcs] using hget
    have hdata := congrArg (fun b : ByteArray => b.data.toList) henc
    simpa [encode, List.utf8Encode] using hdata.symm
  · rintro rfl
    exact decode?_encode s

/-! ## Decoding with replacement -/

/-- What a malformed piece becomes. -/
def replacement : Char := Char.ofNat 0xFFFD

/-- What the decoder has of a scalar value: its bits so far, how many
bytes are missing, and the range the next one must lie in. -/
structure Decoder where
  codePoint : ℕ := 0
  needed : ℕ := 0
  lower : ℕ := 0x80
  upper : ℕ := 0xBF

/-- A byte where a scalar value may start. The narrower ranges keep out
overlong forms, surrogates and values past the last one. -/
def Decoder.first (b : ℕ) : List Char × Decoder :=
  if b ≤ 0x7F then ([Char.ofNat b], {})
  else if 0xC2 ≤ b ∧ b ≤ 0xDF then ([], { codePoint := b % 32, needed := 1 })
  else if 0xE0 ≤ b ∧ b ≤ 0xEF then
    ([], { codePoint := b % 16, needed := 2, lower := if b = 0xE0 then 0xA0 else 0x80,
           upper := if b = 0xED then 0x9F else 0xBF })
  else if 0xF0 ≤ b ∧ b ≤ 0xF4 then
    ([], { codePoint := b % 8, needed := 3, lower := if b = 0xF0 then 0x90 else 0x80,
           upper := if b = 0xF4 then 0x8F else 0xBF })
  else ([replacement], {})

/-- The rest of the input, from where the decoder stands. A byte out of
range ends the piece and is looked at again as a first one. -/
def Decoder.run (d : Decoder) : Bytes → List Char
  | [] => if d.needed = 0 then [] else [replacement]
  | b :: bs =>
    if d.needed = 0 then
      (Decoder.first b.toNat).1 ++ (Decoder.first b.toNat).2.run bs
    else if d.lower ≤ b.toNat ∧ b.toNat ≤ d.upper then
      let codePoint := d.codePoint * 64 + b.toNat % 64
      if d.needed = 1 then Char.ofNat codePoint :: Decoder.run {} bs
      else Decoder.run { codePoint, needed := d.needed - 1 } bs
    else
      replacement :: ((Decoder.first b.toNat).1 ++ (Decoder.first b.toNat).2.run bs)

/-- Decodes any byte string. -/
def decodeLossy (bs : Bytes) : String := String.ofList (Decoder.run {} bs)

namespace Decoder

variable {c : Char} {b : UInt8} {bs : Bytes}

theorem run_first (bs : Bytes) : run {} (b :: bs) = (first b.toNat).1 ++ (first b.toNat).2.run bs := by
  simp [run]

/-- A continuation byte carries six bits. -/
theorem toNat_continuation (x : ℕ) : (UInt8.ofNat (x % 64 + 0x80)).toNat = x % 64 + 0x80 := by
  simp only [UInt8.toNat_ofNat']
  omega

theorem run_last {d : Decoder} (x : ℕ) (hd : d.needed = 1) (hlo : d.lower ≤ x % 64 + 0x80)
    (hhi : x % 64 + 0x80 ≤ d.upper) (bs : Bytes) :
    d.run (UInt8.ofNat (x % 64 + 0x80) :: bs) =
      Char.ofNat (d.codePoint * 64 + x % 64) :: run {} bs := by
  have hsix : (x % 64 + 0x80) % 64 = x % 64 := by omega
  simp only [run, toNat_continuation, hd, hlo, hhi, hsix, and_self, if_true, Nat.one_ne_zero,
    if_false]

theorem run_more {d : Decoder} (x : ℕ) {n : ℕ} (hd : d.needed = n + 2)
    (hlo : d.lower ≤ x % 64 + 0x80) (hhi : x % 64 + 0x80 ≤ d.upper) (bs : Bytes) :
    d.run (UInt8.ofNat (x % 64 + 0x80) :: bs) =
      run { codePoint := d.codePoint * 64 + x % 64, needed := n + 1 } bs := by
  have hsix : (x % 64 + 0x80) % 64 = x % 64 := by omega
  have hone : n + 2 ≠ 1 := by omega
  simp only [run, toNat_continuation, hd, hlo, hhi, hsix, and_self, if_true, if_false, hone,
    Nat.add_eq_zero_iff, OfNat.ofNat_ne_zero, and_false, Nat.add_one_sub_one]

/-- A first byte that leaves `n + 1` more to come. -/
theorem run_first_more {y : ℕ} {d : Decoder} (hy : y < 256) (hfirst : first y = ([], d))
    (bs : Bytes) : run {} (UInt8.ofNat y :: bs) = d.run bs := by
  have hbyte : (UInt8.ofNat y).toNat = y := by
    simp only [UInt8.toNat_ofNat']
    omega
  rw [run_first, hbyte, hfirst, List.nil_append]

/-- Two bytes, for the values past ASCII. -/
theorem run_two {v : ℕ} (hlo : 0x7F < v) (hhi : v ≤ 0x7FF) (bs : Bytes) :
    run {} (UInt8.ofNat (v / 64 % 0x20 + 0xc0) :: UInt8.ofNat (v % 0x40 + 0x80) :: bs) =
      Char.ofNat v :: run {} bs := by
  have hv : (v / 64 % 0x20 + 0xc0) % 32 * 64 + v % 64 = v := by omega
  rw [run_first_more (by omega) (by rw [first, if_neg (by omega), if_pos (by omega)]),
    run_last v rfl (by dsimp only; omega) (by dsimp only; omega)]
  dsimp only
  rw [hv]

/-- Three bytes. The range of the second one is what keeps out the
overlong forms and the surrogates. -/
theorem run_three {v : ℕ} (hlo : 0x7FF < v) (hhi : v ≤ 0xFFFF)
    (hvalid : v < 0xD800 ∨ 0xDFFF < v) (bs : Bytes) :
    run {} (UInt8.ofNat (v / 4096 % 0x10 + 0xe0) :: UInt8.ofNat (v / 64 % 0x40 + 0x80) ::
      UInt8.ofNat (v % 0x40 + 0x80) :: bs) = Char.ofNat v :: run {} bs := by
  have hv : ((v / 4096 % 0x10 + 0xe0) % 16 * 64 + v / 64 % 64) * 64 + v % 64 = v := by omega
  rw [run_first_more (by omega) (by
      rw [first, if_neg (by omega), if_neg (by omega), if_pos (by omega)]),
    run_more (v / 64) (n := 0) rfl (by dsimp only; split <;> omega) (by dsimp only; split <;> omega),
    run_last v rfl (by dsimp only; omega) (by dsimp only; omega)]
  dsimp only
  rw [hv]

/-- Four bytes, up to the last scalar value. -/
theorem run_four {v : ℕ} (hlo : 0xFFFF < v) (hhi : v < 0x110000) (bs : Bytes) :
    run {} (UInt8.ofNat (v / 262144 % 0x08 + 0xf0) :: UInt8.ofNat (v / 4096 % 0x40 + 0x80) ::
      UInt8.ofNat (v / 64 % 0x40 + 0x80) :: UInt8.ofNat (v % 0x40 + 0x80) :: bs) =
      Char.ofNat v :: run {} bs := by
  have hv : (((v / 262144 % 0x08 + 0xf0) % 8 * 64 + v / 4096 % 64) * 64 + v / 64 % 64) * 64 +
      v % 64 = v := by omega
  rw [run_first_more (by omega) (by
      rw [first, if_neg (by omega), if_neg (by omega), if_neg (by omega), if_pos (by omega)]),
    run_more (v / 4096) (n := 1) rfl (by dsimp only; split <;> omega)
      (by dsimp only; split <;> omega),
    run_more (v / 64) (n := 0) rfl (by dsimp only; omega) (by dsimp only; omega),
    run_last v rfl (by dsimp only; omega) (by dsimp only; omega)]
  dsimp only
  rw [hv]

/-- **One character's bytes decode to the character.** -/
theorem run_utf8EncodeChar (c : Char) (bs : Bytes) :
    run {} (String.utf8EncodeChar c ++ bs) = c :: run {} bs := by
  have hvalid : c.toNat < 0xD800 ∨ 0xDFFF < c.toNat ∧ c.toNat < 0x110000 := c.valid
  have hc : Char.ofNat c.toNat = c := Char.ofNat_toNat c
  have hval : c.val.toNat = c.toNat := rfl
  unfold String.utf8EncodeChar
  simp only [hval]
  by_cases h1 : c.toNat ≤ 0x7f
  · have hbyte : (UInt8.ofNat c.toNat).toNat = c.toNat := by
      simp only [UInt8.toNat_ofNat']
      omega
    rw [if_pos h1, List.singleton_append, run_first, hbyte, first, if_pos h1, hc]
    rfl
  rw [if_neg h1]
  by_cases h2 : c.toNat ≤ 0x7ff
  · rw [if_pos h2]
    exact (run_two (by omega) h2 bs).trans (by rw [hc])
  rw [if_neg h2]
  by_cases h3 : c.toNat ≤ 0xffff
  · rw [if_pos h3]
    exact (run_three (by omega) h3 (by omega) bs).trans (by rw [hc])
  · rw [if_neg h3]
    exact (run_four (by omega) (by omega) bs).trans (by rw [hc])

/-- **What was encoded is decoded**, whatever follows. -/
theorem run_encode (s : String) (bs : Bytes) : run {} (encode s ++ bs) = s.toList ++ run {} bs := by
  unfold encode
  induction s.toList with
  | nil => rfl
  | cons c cs ih => rw [List.flatMap_cons, List.append_assoc, run_utf8EncodeChar, ih]; rfl

end Decoder

/-- **Nothing is replaced in what was encoded.** -/
@[simp] theorem decodeLossy_encode (s : String) : decodeLossy (encode s) = s := by
  have hrun := Decoder.run_encode s []
  rw [List.append_nil] at hrun
  rw [decodeLossy, hrun]
  simp [Decoder.run]

end Utf8

end WaylandWebStream
